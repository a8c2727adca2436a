import ZWaveHost.Line

/-! What a port receives of the chunks that are sent to a line: their bytes, in the order of sending. A port may take as
little of an offer as it likes, and stop inside a chunk or between two. The next write offers what is left, so that no byte
is written twice and none is left out. -/
namespace ZWaveHost

def Port.Accepts (port : Port) : Prop :=
  ∀ calls slices, 0 < slices.flatten.length → ∃ n, port.write calls slices = .ok n ∧ 1 ≤ n ∧ n ≤ slices.flatten.length

def Port.Flushes (port : Port) : Prop := ∀ calls, port.flush calls = .ok ()

namespace Line

theorem remainingFlatten (written offset : Nat) (chunks : List Bytes) :
    (remaining written offset chunks).flatten = chunks.flatten.drop (written - offset) := by
  induction chunks generalizing offset with
  | nil => simp [remaining]
  | cons chunk rest ih =>
    simp only [remaining, List.flatten_cons, List.drop_append, Nat.sub_sub]
    split
    · rw [List.flatten_cons, ih]
    · rename_i behind
      have passed : chunk.drop (written - offset) = [] := List.drop_eq_nil_of_le (by omega)
      rw [ih, passed, List.nil_append]

section Batch

variable (port : Port) (batch : List Bytes) (calls : Nat)

inductive Wrote : List Bytes → Nat → Prop
  | nothing : Wrote [] 0
  | more {pieces written n} (before : Wrote pieces written) (left : written < batch.flatten.length)
      (takes : port.write (calls + pieces.length) (remaining written 0 batch) = .ok (n + 1)) :
      Wrote (pieces ++ [(batch.flatten.drop written).take (n + 1)]) (written + (n + 1))

inductive Ended : Nat → List Bytes → Except Fault Unit → Prop
  | flushed {pieces written} (wrote : Wrote port batch calls pieces written) (all : batch.flatten.length ≤ written) :
      Ended pieces.length pieces (port.flush (calls + pieces.length))
  | dry {pieces written} (wrote : Wrote port batch calls pieces written) (left : written < batch.flatten.length)
      (takes : port.write (calls + pieces.length) (remaining written 0 batch) = .ok 0) :
      Ended (pieces.length + 1) pieces (.error nothingTaken)
  | broken {pieces written fault} (wrote : Wrote port batch calls pieces written) (left : written < batch.flatten.length)
      (fails : port.write (calls + pieces.length) (remaining written 0 batch) = .error fault) :
      Ended (pieces.length + 1) pieces (.error fault)

variable {port batch calls} {pieces : List Bytes} {written writes : Nat} {outcome : Except Fault Unit}

namespace Wrote

theorem taken (wrote : Wrote port batch calls pieces written) : pieces.flatten = batch.flatten.take written := by
  induction wrote with
  | nothing => rfl
  | more before left takes ih => rw [List.flatten_append, ih, List.flatten_singleton, ← List.take_add]

theorem fewWrites (wrote : Wrote port batch calls pieces written) :
    pieces.length ≤ written ∧ pieces.length ≤ batch.flatten.length := by
  induction wrote with
  | nothing => exact ⟨Nat.le_refl 0, Nat.zero_le _⟩
  | more before left takes ih =>
    rw [List.length_append, List.length_singleton]
    omega

theorem goesOn (wrote : Wrote port batch calls pieces written) :
    transfer port batch calls 0 =
      { transfer port batch (calls + pieces.length) written with
        pieces := pieces ++ (transfer port batch (calls + pieces.length) written).pieces } := by
  induction wrote with
  | nothing => rfl
  | more before left takes ih =>
    rw [ih, transfer, dif_pos left]
    simp only [takes, remainingFlatten, Nat.sub_zero, List.length_append, List.length_singleton, Nat.add_assoc,
      List.append_assoc, List.singleton_append]

theorem dries (wrote : Wrote port batch calls pieces written) (left : written < batch.flatten.length)
    (takes : port.write (calls + pieces.length) (remaining written 0 batch) = .ok 0) :
    transfer port batch calls 0 = ⟨pieces, calls + pieces.length + 1, .error nothingTaken⟩ := by
  rw [wrote.goesOn, transfer, dif_pos left]
  simp only [takes, List.append_nil]

theorem ends {pieces : List Bytes} {written : Nat} (wrote : Wrote port batch calls pieces written) :
    ∃ writes, Ended port batch calls writes (transfer port batch calls 0).pieces (transfer port batch calls 0).outcome ∧
      (transfer port batch calls 0).calls = calls + (transfer port batch calls 0).pieces.length + 1 := by
  by_cases left : written < batch.flatten.length
  · cases answer : port.write (calls + pieces.length) (remaining written 0 batch) with
    | error fault =>
      rw [wrote.goesOn, transfer, dif_pos left]
      simp only [answer, List.append_nil]
      exact ⟨_, .broken wrote left answer, trivial⟩
    | ok taken =>
      cases taken with
      | zero =>
        rw [wrote.dries left answer]
        exact ⟨_, .dry wrote left answer, rfl⟩
      | succ n => exact (wrote.more left answer).ends
  · rw [wrote.goesOn, transfer, dif_neg left]
    simp only [List.append_nil]
    exact ⟨_, .flushed wrote (Nat.le_of_not_lt left), trivial⟩
termination_by batch.flatten.length - written
decreasing_by omega

end Wrote

namespace Ended

theorem isPrefix (ended : Ended port batch calls writes pieces outcome) : pieces.flatten <+: batch.flatten := by
  cases ended with
  | flushed wrote | dry wrote | broken wrote =>
    rw [wrote.taken]
    exact List.take_prefix _ _

theorem whole (ended : Ended port batch calls writes pieces outcome) (fine : outcome = .ok ()) :
    pieces.flatten = batch.flatten := by
  cases ended with
  | flushed wrote all => rw [wrote.taken, List.take_of_length_le all]
  | dry | broken => cases fine

theorem fewWrites (ended : Ended port batch calls writes pieces outcome) : writes ≤ batch.flatten.length := by
  cases ended with
  | flushed wrote => exact wrote.fewWrites.2
  | dry wrote left | broken wrote left => exact Nat.lt_of_le_of_lt wrote.fewWrites.1 left

theorem accepted (ended : Ended port batch calls writes pieces outcome) (accepts : port.Accepts)
    (flushes : port.Flushes) : outcome = .ok () := by
  have takes {written : Nat} (left : written < batch.flatten.length) (calls : Nat) :
      ∃ n, port.write calls (remaining written 0 batch) = .ok (n + 1) := by
    have offered : 0 < (remaining written 0 batch).flatten.length := by
      rw [remainingFlatten, List.length_drop]
      omega
    obtain ⟨n, answer, some, -⟩ := accepts calls _ offered
    exact ⟨n - 1, by rw [answer, Nat.sub_add_cancel some]⟩
  cases ended with
  | flushed => exact flushes _
  | dry _ left nothing =>
    obtain ⟨n, some⟩ := takes left _
    cases nothing.symm.trans some
  | broken _ left fails =>
    obtain ⟨n, some⟩ := takes left _
    cases fails.symm.trans some

end Ended

end Batch

inductive Written (line : Line) (size writes : Nat) : Line → List Bytes → Prop
  | whole {pieces} (ended : Ended line.port (line.waiting.take size) line.calls writes pieces (.ok ())) :
      Written line size writes
        { line with waiting := line.waiting.drop size, calls := line.calls + pieces.length + 1 } pieces
  | cut {pieces fault} (ended : Ended line.port (line.waiting.take size) line.calls writes pieces (.error fault)) :
      Written line size writes
        { line with waiting := [], calls := line.calls + pieces.length + 1, state := .failed fault } pieces

theorem batchWritten (line : Line) (size : Nat) :
    ∃ writes, line.Written size writes (line.writeBatch size).1 (line.writeBatch size).2 := by
  obtain ⟨writes, ended, calls⟩ := (@Wrote.nothing line.port (line.waiting.take size) line.calls).ends
  refine ⟨writes, ?_⟩
  unfold writeBatch
  dsimp only
  split
  · rename_i fine
    rw [fine] at ended
    rw [calls]
    exact .whole ended
  · rename_i fault broken
    rw [broken] at ended
    rw [calls]
    exact .cut ended

namespace Written

variable {line next : Line} {size writes : Nat} {pieces : List Bytes}

theorem fewWrites (written : line.Written size writes next pieces) : writes ≤ (line.waiting.take size).flatten.length := by
  cases written with
  | whole ended | cut ended => exact ended.fewWrites

theorem port (written : line.Written size writes next pieces) : next.port = line.port := by
  cases written <;> rfl

theorem dropped (written : line.Written size writes next pieces) (running : line.isRunning = true)
    (stopped : next.isRunning = false) : next.waiting = [] := by
  cases written with
  | whole => cases running.symm.trans stopped
  | cut => rfl

theorem accepted (written : line.Written size writes next pieces) (accepts : line.port.Accepts)
    (flushes : line.port.Flushes) : next.isRunning = line.isRunning := by
  cases written with
  | whole => rfl
  | cut ended => cases ended.accepted accepts flushes

end Written

structure Delivery where
  line : Line
  pieces : List Bytes := []

namespace Delivery

inductive Op
  | send (chunk : Bytes)
  | batch (more : Fin batchLimit)

def Op.chunk? : Op → Option Bytes
  | send chunk => some chunk
  | batch _ => none

def sentIn (history : List Op) : List Bytes := history.filterMap Op.chunk?

def step (delivery : Delivery) : Op → Delivery
  | .send chunk => if delivery.line.isRunning then { delivery with line := delivery.line.push chunk } else delivery
  | .batch more =>
    if delivery.line.isRunning && !delivery.line.waiting.isEmpty then
      let (line, taken) := delivery.line.writeBatch (more + 1)
      { line, pieces := delivery.pieces ++ taken }
    else delivery

def run (delivery : Delivery) (history : List Op) : Delivery := history.foldl step delivery

inductive Moves (delivery : Delivery) : Op → Delivery → Prop
  | queued {chunk} (running : delivery.line.isRunning = true) :
      Moves delivery (.send chunk) { delivery with line := delivery.line.push chunk }
  | refused {chunk} (stopped : delivery.line.isRunning = false) : Moves delivery (.send chunk) delivery
  | written {more : Fin batchLimit} {writes next taken} (running : delivery.line.isRunning = true)
      (written : delivery.line.Written (more + 1) writes next taken) :
      Moves delivery (.batch more) ⟨next, delivery.pieces ++ taken⟩
  | waits {more} : Moves delivery (.batch more) delivery

structure Faithful (delivery : Delivery) (sent : List Bytes) : Prop where
  received : delivery.pieces.flatten <+: sent.flatten
  kept : delivery.line.isRunning = true → delivery.pieces.flatten ++ delivery.line.waiting.flatten = sent.flatten
  dropped : delivery.line.isRunning = false → delivery.line.waiting = []

variable {delivery next : Delivery} {op : Op} {sent : List Bytes}

theorem stepMoves (delivery : Delivery) (op : Op) : delivery.Moves op (delivery.step op) := by
  cases op with
  | send chunk =>
    cases running : delivery.line.isRunning with
    | true => simpa [step, running] using Moves.queued running
    | false => simpa [step, running] using Moves.refused running
  | batch more =>
    simp only [step]
    split
    · rename_i ready
      obtain ⟨writes, written⟩ := delivery.line.batchWritten (more + 1)
      exact .written (Bool.and_eq_true_iff.mp ready).1 written
    · exact .waits

namespace Faithful

theorem written (faithful : delivery.Faithful sent) (running : delivery.line.isRunning = true) {size writes : Nat}
    {next : Line} {taken : List Bytes} (written : delivery.line.Written size writes next taken) :
    Faithful ⟨next, delivery.pieces ++ taken⟩ sent := by
  have parts : delivery.pieces.flatten ++ ((delivery.line.waiting.take size).flatten ++
      (delivery.line.waiting.drop size).flatten) = sent.flatten := by
    rw [← List.flatten_append, List.take_append_drop]
    exact faithful.kept running
  cases written with
  | whole ended =>
    have all : (delivery.pieces ++ taken).flatten ++ (delivery.line.waiting.drop size).flatten = sent.flatten := by
      rw [List.flatten_append, ended.whole rfl, List.append_assoc, parts]
    exact ⟨⟨_, all⟩, fun _ => all, fun stopped => nomatch running.symm.trans stopped⟩
  | cut ended =>
    refine ⟨?_, fun still => by simp [isRunning] at still, fun _ => rfl⟩
    rw [List.flatten_append, ← parts]
    exact (List.prefix_append_right_inj _).mpr (ended.isPrefix.trans (List.prefix_append _ _))

theorem moved (faithful : delivery.Faithful sent) (moves : delivery.Moves op next) :
    next.Faithful (sent ++ op.chunk?.toList) := by
  cases moves with
  | @queued chunk running =>
    have more : delivery.pieces.flatten ++ (delivery.line.waiting ++ [chunk]).flatten = (sent ++ [chunk]).flatten := by
      rw [List.flatten_append, List.flatten_append, ← List.append_assoc, faithful.kept running]
    exact ⟨⟨_, more⟩, fun _ => more, fun stopped => nomatch running.symm.trans stopped⟩
  | refused stopped =>
    refine ⟨?_, fun running => (nomatch running.symm.trans stopped), faithful.dropped⟩
    rw [List.flatten_append]
    exact faithful.received.trans (List.prefix_append _ _)
  | written running written => simpa [Op.chunk?] using faithful.written running written
  | waits => simpa [Op.chunk?] using faithful

theorem run (faithful : delivery.Faithful sent) (history : List Op) :
    (delivery.run history).Faithful (sent ++ sentIn history) := by
  induction history generalizing delivery sent with
  | nil => simpa [sentIn, Delivery.run] using faithful
  | cons op rest ih =>
    have later := ih (faithful.moved (delivery.stepMoves op))
    rw [List.append_assoc] at later
    cases op with
    | send | batch => exact later

theorem sooner (faithful : delivery.Faithful sent) (moment : Nat) :
    (delivery.pieces.take moment).flatten <+: sent.flatten := by
  have first : (delivery.pieces.take moment).flatten <+: delivery.pieces.flatten :=
    ⟨(delivery.pieces.drop moment).flatten, by rw [← List.flatten_append, List.take_append_drop]⟩
  exact first.trans faithful.received

end Faithful

theorem Moves.port (moves : delivery.Moves op next) : next.line.port = delivery.line.port := by
  cases moves with
  | written _ written => exact written.port
  | _ => rfl

theorem runPort (delivery : Delivery) (history : List Op) : (delivery.run history).line.port = delivery.line.port := by
  induction history generalizing delivery with
  | nil => rfl
  | cons op rest ih => exact (ih _).trans (delivery.stepMoves op).port

theorem Moves.idle (moves : delivery.Moves op next) (stopped : delivery.line.isRunning = false) : next = delivery := by
  cases moves with
  | queued running | written running => cases running.symm.trans stopped
  | _ => rfl

theorem stoppedRun (stopped : delivery.line.isRunning = false) (history : List Op) : delivery.run history = delivery := by
  induction history with
  | nil => rfl
  | cons op rest ih => rwa [run, List.foldl_cons, (delivery.stepMoves op).idle stopped]

theorem dryBatch {more : Fin batchLimit} {pieces : List Bytes} {written : Nat}
    (running : delivery.line.isRunning = true)
    (wrote : Wrote delivery.line.port (delivery.line.waiting.take (more + 1)) delivery.line.calls pieces written)
    (left : written < (delivery.line.waiting.take (more + 1)).flatten.length)
    (takes : delivery.line.port.write (delivery.line.calls + pieces.length)
      (remaining written 0 (delivery.line.waiting.take (more + 1))) = .ok 0) :
    (delivery.step (.batch more)).line.state = .failed nothingTaken ∧
      (delivery.step (.batch more)).pieces = delivery.pieces ++ pieces := by
  have ready : (delivery.line.isRunning && !delivery.line.waiting.isEmpty) = true := by
    cases waiting : delivery.line.waiting with
    | nil => simp [waiting] at left
    | cons => simp [running]
  have stepped : delivery.step (.batch more) =
      ⟨(delivery.line.writeBatch (more + 1)).1, delivery.pieces ++ (delivery.line.writeBatch (more + 1)).2⟩ := if_pos ready
  rw [stepped, writeBatch, wrote.dries left takes]
  exact ⟨rfl, rfl⟩

section Accepting

variable (accepts : delivery.line.port.Accepts) (flushes : delivery.line.port.Flushes)

include accepts flushes

theorem Moves.accepted (moves : delivery.Moves op next) : next.line.isRunning = delivery.line.isRunning := by
  cases moves with
  | written _ written => exact written.accepted accepts flushes
  | _ => rfl

theorem runAccepted (history : List Op) : (delivery.run history).line.isRunning = delivery.line.isRunning := by
  induction history generalizing delivery with
  | nil => rfl
  | cons op rest ih =>
    have moves := delivery.stepMoves op
    exact (ih (moves.port ▸ accepts) (moves.port ▸ flushes)).trans (moves.accepted accepts flushes)

end Accepting

def Op.fullBatch : Op := .batch ⟨batchLimit - 1, Nat.lt_add_one 15⟩

theorem drainRun (line : Line) (dropped : line.isRunning = false → line.waiting = []) (pieces : List Bytes) :
    line.drain.1.waiting = [] ∧
      ∃ count, (⟨line, pieces⟩ : Delivery).run (List.replicate count .fullBatch) =
        ⟨line.drain.1, pieces ++ line.drain.2⟩ := by
  fun_induction Line.drain line generalizing pieces with
  | case1 line empty => exact ⟨empty, 0, by simp [run]⟩
  | case2 line waits after last drained ih =>
    have running : line.isRunning = true := by
      rw [← Bool.not_eq_false]
      exact fun stopped => waits (dropped stopped)
    obtain ⟨writes, written⟩ := line.batchWritten batchLimit
    obtain ⟨empty, count, later⟩ := ih (written.dropped running) (pieces ++ (line.writeBatch batchLimit).2)
    rw [drained] at empty later
    have ready : (line.isRunning && !line.waiting.isEmpty) = true := by simp [running, waits]
    have first : (⟨line, pieces⟩ : Delivery).step .fullBatch =
        ⟨(line.writeBatch batchLimit).1, pieces ++ (line.writeBatch batchLimit).2⟩ := if_pos ready
    refine ⟨empty, count + 1, ?_⟩
    rw [List.replicate_succ, run, List.foldl_cons, first, ← List.append_assoc]
    exact later

theorem sentReplicate (count : Nat) : sentIn (List.replicate count .fullBatch) = [] := by
  simp [sentIn, Op.fullBatch, Op.chunk?]

/-- A port receives exactly what was sent, however the chunks come and are batched, and whatever the port answers. What
it has received is at every moment the beginning of all the bytes that were sent, in their order; together with those that
still wait it is all of them, as long as the line runs. When the line is drained nothing waits. A port that takes something
of each offer never ends the line. A batch ends after at most as many writes as it has bytes. A write that takes nothing
ends the line for good: the port has received what it took before, and receives nothing more. -/
theorem exactlyDelivered (port : Port) (capacity : Nat) (history : List Op) :
    let delivery := (⟨{ port, capacity }, []⟩ : Delivery).run history
    let line := delivery.line
    let sent := (sentIn history).flatten
    let (drained, last) := line.drain
    (∀ moment, (delivery.pieces.take moment).flatten <+: sent) ∧
    (line.isRunning = true → delivery.pieces.flatten ++ line.waiting.flatten = sent) ∧
    (drained.waiting = [] ∧ (∀ moment, ((delivery.pieces ++ last).take moment).flatten <+: sent) ∧
      (drained.isRunning = true → (delivery.pieces ++ last).flatten = sent)) ∧
    (port.Accepts → port.Flushes → line.isRunning = true ∧ drained.isRunning = true) ∧
    (∀ size, ∃ writes, line.Written size writes (line.writeBatch size).1 (line.writeBatch size).2 ∧
      writes ≤ (line.waiting.take size).flatten.length) ∧
    ∀ (more : Fin batchLimit) pieces written, let batch := line.waiting.take (more + 1)
      line.isRunning = true → Wrote port batch line.calls pieces written → written < batch.flatten.length →
      port.write (line.calls + pieces.length) (remaining written 0 batch) = .ok 0 →
      ∀ later, let ended := delivery.run (.batch more :: later)
        ended.line.state = .failed nothingTaken ∧ ended.pieces = delivery.pieces ++ pieces := by
  have fresh : Faithful ⟨{ port, capacity }, []⟩ [] := ⟨List.prefix_rfl, fun _ => rfl, fun _ => rfl⟩
  have faithful := fresh.run history
  have same : ((⟨{ port, capacity }, []⟩ : Delivery).run history).line.port = port := runPort _ history
  have runs (accepts : port.Accepts) (flushes : port.Flushes) :
      ((⟨{ port, capacity }, []⟩ : Delivery).run history).line.isRunning = true := runAccepted accepts flushes history
  generalize (⟨{ port, capacity }, []⟩ : Delivery).run history = delivery at faithful same runs
  subst same
  obtain ⟨empty, count, drained⟩ := drainRun delivery.line faithful.dropped delivery.pieces
  have drainedFaithful := faithful.run (List.replicate count .fullBatch)
  rw [sentReplicate, List.append_nil, drained] at drainedFaithful
  refine ⟨faithful.sooner, faithful.kept, ⟨empty, drainedFaithful.sooner, fun running => ?_⟩, fun accepts flushes => ?_,
    fun size => ?_, ?_⟩
  · have all := drainedFaithful.kept running
    rwa [empty, List.flatten_nil, List.append_nil] at all
  · have still := runAccepted accepts flushes (List.replicate count .fullBatch)
    rw [drained] at still
    exact ⟨runs accepts flushes, still.trans (runs accepts flushes)⟩
  · obtain ⟨writes, written⟩ := delivery.line.batchWritten size
    exact ⟨writes, written, written.fewWrites⟩
  · intro more pieces written batch running wrote left takes later
    obtain ⟨failed, received⟩ := dryBatch running wrote left takes
    have stopped : (delivery.step (.batch more)).line.isRunning = false := by simp [isRunning, failed]
    rw [run, List.foldl_cons, ← run, stoppedRun stopped]
    exact ⟨failed, received⟩

def sipping : Port := ⟨fun _ slices => .ok (min 2 slices.flatten.length), fun _ => .ok ()⟩

def drying : Port := ⟨fun calls _ => .ok (if calls = 0 then 2 else 0), fun _ => .ok ()⟩

theorem sippedAndDried :
    (sipping.Accepts ∧ sipping.Flushes ∧
      let delivery := (⟨{ port := sipping, capacity := 4 }, []⟩ : Delivery).run
        [.send [1, 2, 3], .send [], .send [4], .batch ⟨1, by decide⟩, .send [5]]
      (delivery.pieces ++ delivery.line.drain.2).flatten = [1, 2, 3, 4, 5]) ∧
    let delivery := (⟨{ port := drying, capacity := 4 }, []⟩ : Delivery).run
      [.send [1, 2, 3], .batch ⟨0, by decide⟩, .send [4], .batch ⟨0, by decide⟩]
    delivery.line.state = .failed nothingTaken ∧ delivery.pieces = [[1, 2]] := by
  have accepts : sipping.Accepts := fun calls slices offered => ⟨_, rfl, by omega, by omega⟩
  have flushes : sipping.Flushes := fun _ => rfl
  obtain ⟨-, -, drained, running, -⟩ :=
    exactlyDelivered sipping 4 [.send [1, 2, 3], .send [], .send [4], .batch ⟨1, by decide⟩, .send [5]]
  obtain ⟨-, -, -, -, -, dries⟩ := exactlyDelivered drying 4 [.send [1, 2, 3]]
  have first : Wrote drying [[1, 2, 3]] 0 [[1, 2]] 2 := @Wrote.more _ _ _ [] 0 1 .nothing (by decide) rfl
  exact ⟨⟨accepts, flushes, drained.2.2 (running accepts flushes).2⟩,
    dries ⟨0, by decide⟩ [[1, 2]] 2 rfl first (by decide) rfl [.send [4], .batch ⟨0, by decide⟩]⟩

end Delivery

end Line

end ZWaveHost

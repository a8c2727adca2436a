import ZWaveHost.Proofs.Link.Turn

/-! The diary of a link: dated marks of what happened to its exchanges, read off the calls, the outputs and the counters
by somebody who looks at no deadline. Every mark that begins a wait and every mark with which the clock ends one is
in it. Exchanges do not overlap, so each has a page of its own. -/
namespace ZWaveHost

def Along {State α : Type} (next : State → α → State) (holds : State → α → Prop) : State → List α → Prop
  | _, [] => True
  | state, entry :: rest => holds state entry ∧ Along next holds (next state entry) rest

theorem alongAppend {State α : Type} {next : State → α → State} {holds : State → α → Prop} {state before later} :
    Along next holds state (before ++ later) ↔
      Along next holds state before ∧ Along next holds (before.foldl next state) later := by
  induction before generalizing state with
  | nil => simp [Along]
  | cons entry rest ih => simp only [List.cons_append, Along, List.foldl_cons, ih, and_assoc]

theorem Along.here {State α : Type} {next : State → α → State} {holds : State → α → Prop} {state before entry later}
    (along : Along next holds state (before ++ entry :: later)) : holds (before.foldl next state) entry :=
  (alongAppend.mp along).2.1

inductive Wait
  | acknowledgement
  | retransmission
  | reply
  deriving DecidableEq, Repr

inductive Mark
  | started (id : Nat)
  | written
  | acknowledged
  | undelivered (why : Undelivered)
  | replied
  | ended (id : Nat) (failure : Option Failure)
  deriving DecidableEq, Repr

namespace Mark

def begins : Mark → Option Wait
  | written => some .acknowledgement
  | undelivered _ => some .retransmission
  | acknowledged | replied => some .reply
  | started _ | ended .. => none

def rings : Mark → Option Wait
  | undelivered .ackTimeout => some .acknowledgement
  | written => some .retransmission
  | ended _ (some (.timeout _)) => some .reply
  | _ => none

theorem ringsOther {mark : Mark} {wait : Wait} (rings : mark.rings = some wait) : mark.begins ≠ some wait := by
  unfold Mark.rings at rings
  split at rings
  · cases rings; nofun
  · cases rings; nofun
  · cases rings; nofun
  · contradiction

end Mark

def Output.mark? : Output → Option Mark
  | .write bytes => if bytes = [Wire.ack] ∨ bytes = [Wire.nak] then none else some .written
  | .event (.started id _) => some (.started id)
  | .event (.received _ context) => context.map fun _ => .replied
  | .event (.completed id ..) => some (.ended id none)
  | .event (.failed id _ _ why) => some (.ended id (some why))

structure Page where
  exchange : Nat := 0
  entries : List (Time × Mark) := []
  deriving DecidableEq, Repr

namespace Page

def add (page : Page) (entry : Time × Mark) : Page :=
  match entry.2 with
  | .started id => ⟨id, []⟩
  | _ => { page with entries := page.entries ++ [entry] }

def addAll (page : Page) (entries : List (Time × Mark)) : Page := entries.foldl add page

def behind (diary : List (Time × Mark)) : Page := ({} : Page).addAll diary

def transmissions (page : Page) : Nat := page.entries.countP (·.2 = .written)

def failures (page : Page) : List Time :=
  page.entries.filterMap fun
    | (instant, .undelivered _) => some instant
    | _ => none

def last? (page : Page) : Option (Time × Mark) := page.entries.getLast?

theorem lastAdded (exchange : Nat) (entries : List (Time × Mark)) (entry : Time × Mark) :
    (⟨exchange, entries ++ [entry]⟩ : Page).last? = some entry := List.getLast?_concat

theorem lastFailure {page : Page} {failed why} (last : page.last? = some (failed, .undelivered why)) :
    page.failures[page.failures.length - 1]? = some failed := by
  obtain ⟨earlier, entries⟩ := List.getLast?_eq_some_iff.mp last
  rw [← List.getLast?_eq_getElem?, failures, entries, List.filterMap_append]
  exact List.getLast?_concat

theorem addAllSuffix (page : Page) (diary : List (Time × Mark)) :
    (page.addAll diary).entries <:+ page.entries ++ diary := by
  induction diary generalizing page with
  | nil => simp [addAll]
  | cons entry rest ih =>
    have later := ih (page.add entry)
    obtain ⟨instant, mark⟩ := entry
    cases mark with
    | started id => exact later.trans ((List.suffix_cons _ rest).trans (List.suffix_append page.entries _))
    | _ => simpa [addAll, add] using later

theorem behindSuffix (diary : List (Time × Mark)) : (behind diary).entries <:+ diary := addAllSuffix {} diary

end Page

namespace Link

def settling (before after : LinkStats) : Op → Option Mark
  | .inbound .ack => if after.unexpectedControl = before.unexpectedControl then some .acknowledged else none
  | .inbound .nak => if after.unexpectedControl = before.unexpectedControl then some (.undelivered .nak) else none
  | .inbound .can => if after.unexpectedControl = before.unexpectedControl then some (.undelivered .can) else none
  | _ => if after.ackTimeouts = before.ackTimeouts then none else some (.undelivered .ackTimeout)

def marks (link : Link) (now : Time) (op : Op) : List Mark :=
  let (after, outputs) := link.step now op
  (settling link.handshake.stats after.handshake.stats op).toList ++ outputs.filterMap Output.mark?

def diary (link : Link) : List (Time × Op) → List (Time × Mark)
  | [] => []
  | (now, op) :: rest => (link.marks now op).map (now, ·) ++ (link.step now op).1.diary rest

theorem diaryInstants (link : Link) (history : List (Time × Op)) :
    ∀ entry ∈ link.diary history, entry.1 ∈ history.map Prod.fst := by
  induction history generalizing link with
  | nil => simp [diary]
  | cons call rest ih =>
    intro entry member
    rcases List.mem_append.mp member with now | later
    · obtain ⟨mark, _, rfl⟩ := List.mem_map.mp now
      exact List.mem_cons_self
    · exact List.mem_cons_of_mem _ (ih _ entry later)

theorem diaryOrdered (link : Link) {history : List (Time × Op)}
    (ordered : (history.map Prod.fst).Pairwise (· ≤ ·)) :
    (link.diary history).Pairwise (·.1 ≤ ·.1) := by
  induction history generalizing link with
  | nil => exact .nil
  | cons call rest ih =>
    obtain ⟨first, others⟩ := List.pairwise_cons.mp ordered
    refine List.pairwise_append.mpr ⟨?_, ih _ others, fun entry now other later => ?_⟩
    · exact List.pairwise_map.mpr (List.pairwise_of_forall fun _ _ => Nat.le_refl _)
    · obtain ⟨mark, _, rfl⟩ := List.mem_map.mp now
      exact first _ (diaryInstants _ rest other later)

end Link

end ZWaveHost

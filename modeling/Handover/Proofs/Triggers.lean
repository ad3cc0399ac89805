import Handover.World
import Mathlib.Data.List.Range
import Mathlib.Data.List.Sort

/-!
Contract: triggers of the recovery signal that overlap.

A trigger counts and then publishes the number that it got. The coordinator and the node API
may both trigger, and between the two steps of a call any steps of other calls can happen.

Owns: the calls that are halfway and the subscribers, as a system that takes one step after the
other; what the steps so far tell of the signal; that the channel follows the count just while
calls publish in the order in which they counted; and that no subscriber misses a publication.

Numbers are given out in order and each of them is published once. So all that an overlap can
change is the order of the publications, and the channel holds the number that came last.
-/

set_option autoImplicit false

namespace Handover

/-- A signal with the calls that trigger it and those who subscribe to it. -/
structure Triggers where
  signal : Signal
  /-- The numbers of the calls that have counted and not yet published. -/
  halfway : List Nat
  /-- For each subscriber the count of publications when it looked last. -/
  looked : List Nat
deriving DecidableEq, Repr

namespace Triggers

inductive Move where
  /-- A call counts. -/
  | count
  /-- The call that got this number publishes it. -/
  | publish (number : Nat)
  | subscribe
  | look (subscriber : Nat)
deriving DecidableEq, Repr

/-- The number that a move publishes. -/
def Move.number? : Move → Option Nat
  | .publish number => some number
  | _ => none

def initial : Triggers := ⟨.initial, [], []⟩

/-- The state after a move, if it can be made. -/
def step (calls : Triggers) : Move → Option Triggers
  | .count =>
      let (signal, number) := calls.signal.advance
      some { calls with signal := signal, halfway := calls.halfway ++ [number] }
  | .publish number =>
      if number ∈ calls.halfway then
        some { calls with
          signal := calls.signal.publish number
          halfway := calls.halfway.erase number }
      else none
  | .subscribe => some { calls with looked := calls.looked ++ [calls.signal.publications] }
  | .look subscriber => some { calls with looked := calls.looked.set subscriber calls.signal.publications }

def run (calls : Triggers) : List Move → Option Triggers
  | [] => some calls
  | move :: rest => (calls.step move).bind fun next => next.run rest

/-- The numbers that moves publish, in order. -/
def numbers (moves : List Move) : List Nat := moves.filterMap Move.number?

/-- What the channel holds, one value after the other. -/
def values (moves : List Move) : List Nat := 0 :: numbers moves

/-- Each publication is that of the call that is halfway for longest. -/
def InTurn (calls : Triggers) : List Move → Prop
  | [] => True
  | move :: rest =>
      (∀ number, move = .publish number → calls.halfway.head? = some number) ∧
        ∀ next, calls.step move = some next → next.InTurn rest

variable {calls next after : Triggers} {move : Move} {before moves rest : List Move} {number : Nat}

/-! ## Two steps of one call -/

/-- A trigger that nothing comes between is its two steps. -/
theorem run_trigger (signal : Signal) (looked : List Nat) :
    run ⟨signal, [], looked⟩ [.count, .publish signal.advance.2] = some ⟨signal.trigger, [], looked⟩ := by
  simp [run, step, Signal.trigger, Signal.advance, Signal.publish]

/-! ## What the moves tell -/

theorem numbers_append : numbers (before ++ rest) = numbers before ++ numbers rest :=
  List.filterMap_append

theorem numbers_cons : numbers (move :: rest) = move.number?.toList ++ numbers rest := by
  rw [numbers, List.filterMap_cons]
  cases move.number? <;> rfl

theorem numbers_snoc : numbers (moves ++ [move]) = numbers moves ++ move.number?.toList := by
  rw [numbers_append, numbers_cons]
  exact congrArg _ (List.append_nil _)

theorem values_snoc : values (moves ++ [move]) = values moves ++ move.number?.toList :=
  congrArg (List.cons 0) numbers_snoc

/-- What the moves so far tell of the state that they lead to. -/
structure Tally (moves : List Move) (calls : Triggers) : Prop where
  generation : calls.signal.generation = moves.count .count
  publications : calls.signal.publications = (numbers moves).length
  /-- The channel holds what was published last. -/
  published : (values moves).getLast? = some calls.signal.published
  /-- Every number that was given out is published or halfway, and only once. -/
  given : (numbers moves ++ calls.halfway).Perm (List.range' 1 calls.signal.generation)
  /-- Those that are halfway stand in the order in which they counted. -/
  queued : calls.halfway.Pairwise (· < ·)

theorem tally_initial : Tally [] initial where
  generation := rfl
  publications := rfl
  published := rfl
  given := .refl _
  queued := .nil

theorem Tally.range_of_given (tally : Tally moves calls) (given : number ∈ numbers moves ++ calls.halfway) :
    1 ≤ number ∧ number ≤ calls.signal.generation := by
  have inRange := tally.given.subset given
  rw [List.mem_range'_1] at inRange
  omega

/-- Who looks when plays no part. -/
theorem Tally.looked (tally : Tally moves calls) (silent : move.number? = none) (other : move ≠ .count)
    (looked : List Nat) : Tally (moves ++ [move]) { calls with looked := looked } where
  generation := by
    rw [List.count_append, List.count_singleton, if_neg (by simpa using other)]
    exact tally.generation
  publications := by simpa [numbers_snoc, silent] using tally.publications
  published := by simpa [values_snoc, silent] using tally.published
  given := by simpa [numbers_snoc, silent] using tally.given
  queued := tally.queued

/-- What one move adds to what the moves before it tell. -/
theorem Tally.step (tally : Tally moves calls) (moved : calls.step move = some next) :
    Tally (moves ++ [move]) next := by
  cases move with
  | count =>
      cases moved
      refine ⟨?_, ?_, ?_, ?_, ?_⟩
      · simpa using tally.generation
      · simpa [numbers_snoc, Move.number?] using tally.publications
      · simpa [values_snoc, Move.number?] using tally.published
      · have given := tally.given.append_right [calls.signal.generation + 1]
        simpa [numbers_snoc, Move.number?, List.range'_1_concat, Nat.add_comm 1] using given
      · refine List.pairwise_append.2 ⟨tally.queued, List.pairwise_singleton _ _, ?_⟩
        intro earlier member later same
        obtain rfl := List.mem_singleton.1 same
        exact Nat.lt_succ_of_le (tally.range_of_given (List.mem_append_right _ member)).2
  | publish number =>
      simp only [Triggers.step] at moved
      split at moved
      case isFalse => cases moved
      case isTrue member =>
        cases moved
        refine ⟨?_, ?_, ?_, ?_, tally.queued.erase number⟩
        · simpa [Signal.publish] using tally.generation
        · simpa [numbers_snoc, Signal.publish, Move.number?] using tally.publications
        · simp [values_snoc, Signal.publish, Move.number?]
        · have order := (List.perm_cons_erase member).symm.append_left (numbers moves)
          simpa [numbers_snoc, Signal.publish, Move.number?] using order.trans tally.given
  | subscribe =>
      cases moved
      have other : Move.subscribe ≠ .count := nofun
      exact tally.looked rfl other _
  | look subscriber =>
      cases moved
      have other : Move.look subscriber ≠ .count := nofun
      exact tally.looked rfl other _

theorem Tally.run (tally : Tally before calls) (ran : calls.run moves = some after) :
    Tally (before ++ moves) after := by
  induction moves generalizing before calls with
  | nil =>
      cases ran
      rwa [List.append_nil]
  | cons move rest inductionHypothesis =>
      obtain ⟨next, moved, later⟩ := Option.bind_eq_some_iff.1 ran
      rw [List.append_cons]
      exact inductionHypothesis (tally.step moved) later

/-! ## The order of the publications -/

/-- The numbers come one after the other, from 1 on. -/
def Consecutive (moves : List Move) : Prop := numbers moves = List.range' 1 (numbers moves).length

theorem Consecutive.of_append (consecutive : Consecutive (before ++ rest)) : Consecutive before := by
  rw [Consecutive, numbers_append, List.length_append, ← List.range'_append_1] at consecutive
  exact List.append_inj_left consecutive (by rw [List.length_range'])

theorem Consecutive.ascending (consecutive : Consecutive moves) : (values moves).Pairwise (· < ·) := by
  rw [values, consecutive]
  refine List.pairwise_cons.2 ⟨fun number member => ?_, List.pairwise_lt_range' _⟩
  rw [List.mem_range'_1] at member
  omega

/-- Where the numbers so far came one after the other, those that follow are halfway. -/
theorem Tally.halfway_eq (tally : Tally moves calls) (consecutive : Consecutive moves) :
    calls.halfway = List.range' ((numbers moves).length + 1)
      (calls.signal.generation - (numbers moves).length) := by
  have count := tally.given.length_eq
  rw [List.length_append, List.length_range'] at count
  have split : List.range' 1 calls.signal.generation = List.range' 1 (numbers moves).length ++
      List.range' (1 + (numbers moves).length) (calls.signal.generation - (numbers moves).length) := by
    rw [List.range'_append_1, Nat.add_sub_cancel' (by omega)]
  have given := tally.given
  rw [split, ← consecutive, List.perm_append_left_iff, Nat.add_comm 1] at given
  exact given.eq_of_pairwise (fun left right _ _ less greater => absurd less (Nat.lt_asymm greater))
    tally.queued (List.pairwise_lt_range' _)

/-- The next number to come is that of the call that is halfway for longest. -/
theorem Tally.consecutive_publish (tally : Tally moves calls) (consecutive : Consecutive moves)
    (member : number ∈ calls.halfway) :
    Consecutive (moves ++ [.publish number]) ↔ calls.halfway.head? = some number := by
  have next : Consecutive (moves ++ [.publish number]) ↔ number = (numbers moves).length + 1 := by
    rw [Consecutive, numbers_snoc, List.length_append]
    change _ ++ [number] = List.range' 1 (_ + 1) ↔ _
    rw [List.range'_1_concat, ← consecutive, List.append_cancel_left_eq, List.cons.injEq,
      Nat.add_comm 1]
    exact and_iff_left rfl
  rw [tally.halfway_eq consecutive] at member ⊢
  rw [next, List.head?_range', if_neg (List.ne_nil_of_mem member ∘ fun none => by rw [none]; rfl)]
  exact ⟨fun same => congrArg some same.symm, fun same => (Option.some.inj same).symm⟩

/-- Just if each call publishes in its turn, the numbers come one after the other. -/
theorem Tally.inTurn_iff (tally : Tally before calls) (consecutive : Consecutive before)
    (ran : calls.run moves = some after) : calls.InTurn moves ↔ Consecutive (before ++ moves) := by
  induction moves generalizing before calls with
  | nil => simpa [InTurn] using consecutive
  | cons move rest inductionHypothesis =>
      obtain ⟨next, moved, later⟩ := Option.bind_eq_some_iff.1 ran
      have turn : (∀ number, move = .publish number → calls.halfway.head? = some number) ↔
          Consecutive (before ++ [move]) := by
        cases move with
        | publish number =>
            have member : number ∈ calls.halfway := by
              simp only [Triggers.step] at moved
              split at moved
              case isTrue member => exact member
              case isFalse => cases moved
            rw [tally.consecutive_publish consecutive member]
            exact ⟨fun turn => turn number rfl, fun turn _ same => Move.publish.inj same ▸ turn⟩
        | _ => exact iff_of_true nofun (by simpa [Consecutive, numbers_snoc, Move.number?] using consecutive)
      rw [InTurn, turn, List.append_cons before move rest]
      constructor
      · rintro ⟨now, others⟩
        exact (inductionHypothesis (tally.step moved) now later).1 (others next moved)
      · intro whole
        have now : Consecutive (before ++ [move]) := whole.of_append
        refine ⟨now, fun other same => ?_⟩
        obtain rfl := Option.some.inj (moved.symm.trans same)
        exact (inductionHypothesis (tally.step moved) now later).2 whole

/-- With nobody halfway, ascending numbers come one after the other. -/
theorem Tally.consecutive_of_ascending (tally : Tally moves calls) (settled : calls.halfway = [])
    (ascending : (values moves).Pairwise (· ≤ ·)) : Consecutive moves := by
  have given := tally.given
  rw [settled, List.append_nil] at given
  have count := given.length_eq
  rw [List.length_range'] at count
  rw [Consecutive, count]
  exact given.eq_of_pairwise (fun left right _ _ less more => Nat.le_antisymm less more)
    (List.pairwise_cons.1 ascending).2 ((List.pairwise_lt_range' _).imp Nat.le_of_lt)

theorem Tally.published_of_consecutive (tally : Tally moves calls) (consecutive : Consecutive moves)
    (settled : calls.halfway = []) : calls.signal.published = calls.signal.generation := by
  have count := tally.given.length_eq
  rw [settled, List.append_nil, List.length_range'] at count
  have whole : values moves = List.range' 0 (calls.signal.generation + 1) := by
    rw [values, consecutive, count]
    rfl
  have latest := tally.published
  rw [whole, List.getLast?_range'] at latest
  simpa using latest.symm

/-! ## Subscribers -/

/-- Whether something was published since a subscriber looked. -/
def unseen (calls : Triggers) (subscriber : Nat) : Bool :=
  (calls.looked[subscriber]?).any calls.signal.hasUnseen

section Subscriber

variable {subscriber : Nat}

theorem step_publications (moved : calls.step move = some next) :
    next.signal.publications = calls.signal.publications + move.number?.toList.length := by
  cases move with
  | publish number =>
      simp only [step] at moved
      split at moved
      case isFalse => cases moved
      case isTrue =>
        cases moved
        rfl
  | _ =>
      cases moved
      rfl

/-- What a subscriber has looked at changes only when it looks. -/
theorem step_looked (moved : calls.step move = some next) (known : subscriber < calls.looked.length)
    (away : move ≠ .look subscriber) : next.looked[subscriber]? = calls.looked[subscriber]? := by
  cases move with
  | count =>
      cases moved
      rfl
  | publish number =>
      simp only [step] at moved
      split at moved
      case isFalse => cases moved
      case isTrue =>
        cases moved
        rfl
  | subscribe =>
      cases moved
      exact List.getElem?_append_left known
  | look other =>
      cases moved
      exact List.getElem?_set_ne fun same => away (congrArg Move.look same)

/-- What a run leaves of what a subscriber has looked at that does not look meanwhile. -/
theorem run_looked (ran : calls.run moves = some after) {count : Nat}
    (looked : calls.looked[subscriber]? = some count) (away : .look subscriber ∉ moves) :
    after.looked[subscriber]? = some count ∧
      after.signal.publications = calls.signal.publications + (numbers moves).length := by
  induction moves generalizing calls with
  | nil =>
      cases ran
      exact ⟨looked, rfl⟩
  | cons move rest inductionHypothesis =>
      obtain ⟨next, moved, later⟩ := Option.bind_eq_some_iff.1 ran
      have apart : move ≠ .look subscriber := fun same => away (same ▸ List.mem_cons_self)
      obtain ⟨known, -⟩ := List.getElem?_eq_some_iff.1 looked
      obtain ⟨kept, counted⟩ := inductionHypothesis later ((step_looked moved known apart).trans looked)
        fun member => away (List.mem_cons_of_mem _ member)
      refine ⟨kept, ?_⟩
      rw [counted, step_publications moved, numbers_cons, List.length_append, Nat.add_assoc]

/-- A subscriber that has looked finds something new just if something was published since, in
whatever order the calls publish. -/
theorem unseen_iff (known : subscriber < calls.looked.length)
    (ran : calls.run (.look subscriber :: moves) = some after) (away : .look subscriber ∉ moves) :
    after.unseen subscriber = true ↔ numbers moves ≠ [] := by
  obtain ⟨next, moved, later⟩ := Option.bind_eq_some_iff.1 ran
  cases moved
  obtain ⟨looked, publications⟩ := run_looked later (List.getElem?_set_self known) away
  rw [unseen, looked, ← List.length_pos_iff]
  simp only [Option.any_some, Signal.hasUnseen, publications, bne_iff_ne]
  omega

end Subscriber

/-! ## Triggers in any order -/

/-- What becomes of the signal when triggers overlap. -/
structure Overlap (moves : List Move) (after : Triggers) : Prop where
  counted : after.signal.generation = moves.count .count
  /-- The channel holds what was published last, and nothing beyond the count. -/
  latest : (values moves).getLast? = some after.signal.published
  bounded : ∀ value ∈ values moves, value ≤ after.signal.generation
  /-- Triggers are counted without a bound. As long as a 64-bit word holds their number, it holds
  the count and every value. -/
  fits : moves.count .count < UInt64.size →
    after.signal.generation < UInt64.size ∧ ∀ value ∈ values moves, value < UInt64.size
  /-- With nobody halfway, every trigger has published a number of its own. -/
  settled : after.halfway = [] → (numbers moves).Perm (List.range' 1 after.signal.generation)
  /-- Where each call publishes in its turn, the values rise. -/
  ascending : initial.InTurn moves → (values moves).Pairwise (· < ·)
  /-- Where each call publishes in its turn and nobody is halfway, the count is published. -/
  current : initial.InTurn moves → after.halfway = [] → after.signal.published = after.signal.generation
  /-- No other order keeps the values from falling. -/
  exact : after.halfway = [] → (values moves).Pairwise (· ≤ ·) → initial.InTurn moves

/-- However the two steps of any number of triggers overlap, each of them is counted and publishes
its own number. The values that the channel holds never fall while calls publish in the order in
which they counted, and once nobody is halfway that is the only such order. -/
theorem triggers_overlap (ran : initial.run moves = some after) : Overlap moves after := by
  have tally : Tally moves after := tally_initial.run ran
  have turn : initial.InTurn moves ↔ Consecutive moves := tally_initial.inTurn_iff rfl ran
  have bounded : ∀ value ∈ values moves, value ≤ after.signal.generation := by
    intro value member
    rcases List.mem_cons.1 member with rfl | given
    · exact Nat.zero_le _
    · exact (tally.range_of_given (List.mem_append_left _ given)).2
  exact
    { counted := tally.generation
      latest := tally.published
      bounded := bounded
      fits := fun few => by
        have small : after.signal.generation < UInt64.size := tally.generation ▸ few
        exact ⟨small, fun value member => (bounded value member).trans_lt small⟩
      settled := fun settled => by simpa [settled] using tally.given
      ascending := fun inTurn => (turn.1 inTurn).ascending
      current := fun inTurn settled => tally.published_of_consecutive (turn.1 inTurn) settled
      exact := fun settled ascending => turn.2 (tally.consecutive_of_ascending settled ascending) }

/-- Two calls count, and each publishes in its turn. -/
theorem triggers_overlap_in_turn :
    ∃ after, initial.run [.subscribe, .count, .count, .publish 1, .publish 2] = some after ∧
      Overlap [.subscribe, .count, .count, .publish 1, .publish 2] after ∧
      initial.InTurn [.subscribe, .count, .count, .publish 1, .publish 2] := by
  have ran : initial.run [.subscribe, .count, .count, .publish 1, .publish 2] =
      some ⟨⟨2, 2, 2⟩, [], [0]⟩ := by decide
  have overlap := triggers_overlap ran
  exact ⟨_, ran, overlap, overlap.exact rfl (by decide)⟩

/-- Two calls count, and the second publishes first: nobody is halfway any more, but the subscriber
finds 1 after 2, and the count is 2. -/
theorem number_goes_back :
    ∃ moves after, initial.run moves = some after ∧ after.halfway = [] ∧
      values moves = [0, 2, 1] ∧ ¬ (values moves).Pairwise (· ≤ ·) ∧
      after.signal.published = 1 ∧ after.signal.generation = 2 :=
  ⟨[.subscribe, .count, .count, .publish 2, .look 0, .publish 1], ⟨⟨2, 1, 2⟩, [], [1]⟩,
    by decide, rfl, rfl, by decide, rfl, rfl⟩

end Triggers

end Handover

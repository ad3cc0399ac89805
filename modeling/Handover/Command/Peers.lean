import Handover.Fault
import Handover.Text.Quoted

/-!
Contract: the list of peers as it stands on the command line.

Peers are separated by commas, with white space around them and empty places
between them as one likes. A peer has a colon in it somewhere.
-/

set_option autoImplicit false

namespace Handover.Command.Peers

/-- The pieces of a text between its marks: one more than there are marks. -/
def pieces (mark : Char) : List Char → List (List Char)
  | [] => [[]]
  | char :: rest =>
      if char = mark then [] :: pieces mark rest
      else match pieces mark rest with
        | [] => [[char]]
        | first :: more => (char :: first) :: more

theorem pieces_ne_nil (mark : Char) (chars : List Char) : pieces mark chars ≠ [] := by
  cases chars with
  | nil => exact List.cons_ne_nil _ _
  | cons head tail =>
      unfold pieces
      split
      · exact List.cons_ne_nil _ _
      · split <;> exact List.cons_ne_nil _ _

/-- No piece holds the mark. -/
theorem not_mem_of_mem_pieces {mark : Char} {chars piece : List Char}
    (member : piece ∈ pieces mark chars) : mark ∉ piece := by
  induction chars generalizing piece with
  | nil =>
      rw [pieces, List.mem_singleton] at member
      rw [member]
      exact List.not_mem_nil
  | cons head tail inductionHypothesis =>
      rw [pieces] at member
      by_cases isMark : head = mark
      · rw [if_pos isMark, List.mem_cons] at member
        rcases member with rfl | later
        · exact List.not_mem_nil
        · exact inductionHypothesis later
      · rw [if_neg isMark] at member
        cases split : pieces mark tail with
        | nil => exact absurd split (pieces_ne_nil mark tail)
        | cons first more =>
            rw [split] at member inductionHypothesis
            rcases List.mem_cons.1 member with rfl | later
            · have firstFree := inductionHypothesis List.mem_cons_self
              intro inFront
              rcases List.mem_cons.1 inFront with equal | inFirst
              · exact isMark equal.symm
              · exact firstFree inFirst
            · exact inductionHypothesis (List.mem_cons_of_mem first later)

/-- The places between commas that are not blank, without white space around. -/
def places (text : String) : List String :=
  (((pieces ',' text.toList).map Text.trimChars).filter (· ≠ [])).map String.ofList

def refusal (place : String) : Fault :=
  .config ("invalid peer " ++ Text.quoted place ++ ", expected host:port")

/-- The peer of one place. -/
def readPlace (place : String) : Except Fault Address :=
  if place.toList.contains ':' then .ok ⟨place⟩ else .error (refusal place)

/-- The peers of a list in order; the first place without a colon is refused. -/
def read (text : String) : Except Fault (List Address) := (places text).mapM readPlace

end Handover.Command.Peers

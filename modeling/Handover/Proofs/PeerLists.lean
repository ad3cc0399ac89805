import Handover.Command.Peers
import Handover.Proofs.Texts

/-!
Contract: which texts list peers, and which peers they list.

A text is read piece by piece between its commas. White space around a piece does not count, and
a piece of white space only names nobody.

Owns: what the peers of a text are, and which piece a refusal names; how a list of peers may be
written; and that the texts that list some peers are just those in which they are so written.
-/

set_option autoImplicit false

namespace Handover.Command.Peers

open Text (Trimmed isBlankChar trimChars)

/-! ## Piece by piece -/

theorem pieces_eq_splitOn (mark : Char) (chars : List Char) :
    pieces mark chars = chars.splitOn mark := by
  induction chars with
  | nil => rfl
  | cons char rest inductionHypothesis =>
      rw [pieces, inductionHypothesis, List.splitOn_cons_eq_if_modifyHead]
      simp only [beq_iff_eq]
      split
      case isTrue => rfl
      case isFalse =>
        cases split : rest.splitOn mark with
        | nil => exact absurd split (List.splitOn_ne_nil mark rest)
        | cons first more => rfl

/-- Whether a piece is neither white space only nor has a colon. -/
def offends (piece : List Char) : Bool := !piece.all isBlankChar && !piece.contains ':'

/-- What a piece says once the white space around it is gone. -/
def nameIn (piece : List Char) : String := Text.trim (String.ofList piece)

/-- The peers that pieces name: one for each that is not white space only. -/
def peersIn (pieces : List (List Char)) : List Address :=
  (pieces.filter fun piece => !piece.all isBlankChar).map fun piece => ⟨nameIn piece⟩

section Piece

variable {piece : List Char} {rest : List (List Char)}

theorem offends_eq_false_iff :
    offends piece = false ↔ (piece.all isBlankChar = false → ':' ∈ piece) := by
  cases blank : piece.all isBlankChar <;> simp [offends, blank]

theorem toList_nameIn : (nameIn piece).toList = trimChars piece := by
  rw [nameIn, Text.trim, String.toList_ofList, String.toList_ofList]

theorem peersIn_cons_of_blank (blank : piece.all isBlankChar = true) :
    peersIn (piece :: rest) = peersIn rest := by
  simp [peersIn, blank]

theorem peersIn_cons_of_named (named : piece.all isBlankChar = false) :
    peersIn (piece :: rest) = ⟨nameIn piece⟩ :: peersIn rest := by
  simp [peersIn, named]

theorem readPlace_nameIn (piece : List Char) : readPlace (nameIn piece) =
    if ':' ∈ piece then .ok ⟨nameIn piece⟩ else .error (refusal (nameIn piece)) := by
  have colon : ':' ∈ (nameIn piece).toList ↔ ':' ∈ piece := by
    rw [toList_nameIn, Text.mem_trimChars_iff (by decide)]
  simp only [readPlace, List.contains_iff_mem, colon]

end Piece

/-- The places that pieces are. -/
def placesIn (pieces : List (List Char)) : List String :=
  ((pieces.map trimChars).filter (· ≠ [])).map String.ofList

theorem placesIn_cons_of_blank {piece : List Char} {rest : List (List Char)}
    (blank : piece.all isBlankChar = true) : placesIn (piece :: rest) = placesIn rest := by
  have nothing : trimChars piece = [] := (Text.trimChars_eq_nil_iff piece).2 blank
  simp [placesIn, nothing]

theorem placesIn_cons_of_named {piece : List Char} {rest : List (List Char)}
    (named : piece.all isBlankChar = false) :
    placesIn (piece :: rest) = nameIn piece :: placesIn rest := by
  have something : trimChars piece ≠ [] := fun nothing =>
    Bool.eq_false_iff.1 named ((Text.trimChars_eq_nil_iff piece).1 nothing)
  simp [placesIn, something, nameIn, Text.trim]

theorem find?_offends_eq_none_iff {pieces : List (List Char)} :
    pieces.find? offends = none ↔ ∀ piece ∈ pieces, offends piece = false := by
  simp only [List.find?_eq_none, Bool.not_eq_true]

/-- The pieces are read in order, up to the first that offends. -/
theorem mapM_placesIn (pieces : List (List Char)) :
    (placesIn pieces).mapM readPlace = match pieces.find? offends with
      | some piece => .error (refusal (nameIn piece))
      | none => .ok (peersIn pieces) := by
  induction pieces with
  | nil => rfl
  | cons piece rest inductionHypothesis =>
      cases blank : piece.all isBlankChar with
      | true =>
          have passed : ¬ offends piece = true := by simp [offends, blank]
          rw [placesIn_cons_of_blank blank, peersIn_cons_of_blank blank,
            List.find?_cons_of_neg passed, inductionHypothesis]
      | false =>
          rw [placesIn_cons_of_named blank, peersIn_cons_of_named blank, List.mapM_cons,
            readPlace_nameIn, inductionHypothesis]
          by_cases colon : ':' ∈ piece
          · have passed : ¬ offends piece = true := by simp [offends, colon]
            rw [if_pos colon, List.find?_cons_of_neg passed]
            cases rest.find? offends <;> rfl
          -- The first piece that offends ends the reading, whatever comes later.
          · have offending : offends piece = true := by simp [offends, blank, colon]
            rw [if_neg colon, List.find?_cons_of_pos offending]
            rfl

theorem read_eq (text : String) :
    read text = match (text.toList.splitOn ',').find? offends with
      | some piece => .error (refusal (nameIn piece))
      | none => .ok (peersIn (text.toList.splitOn ',')) := by
  rw [← mapM_placesIn, ← pieces_eq_splitOn]
  rfl

theorem read_eq_ok_iff {text : String} {peers : List Address} : read text = .ok peers ↔
    (text.toList.splitOn ',').find? offends = none ∧ peers = peersIn (text.toList.splitOn ',') := by
  rw [read_eq]
  cases (text.toList.splitOn ',').find? offends <;> simp [eq_comm]

theorem read_eq_error_iff {text : String} {fault : Fault} : read text = .error fault ↔
    ∃ piece, (text.toList.splitOn ',').find? offends = some piece ∧ fault = refusal (nameIn piece) := by
  rw [read_eq]
  cases (text.toList.splitOn ',').find? offends <;> simp [eq_comm]

/-- A refusal tells which place is refused. -/
theorem refusal_injective : Function.Injective refusal := by
  intro place other same
  have message := Fault.config.inj same
  have quoted : Text.quoted place = Text.quoted other := by
    simpa [← String.toList_inj] using message
  exact Text.quoted_injective quoted

/-! ## How peers may be written -/

/-- An address that can stand in a list of peers. -/
structure Nameable (peer : Address) : Prop where
  named : peer.isBlank = false
  trimmed : Trimmed peer.text.toList
  whole : ',' ∉ peer.text.toList
  colon : ':' ∈ peer.text.toList

/-- The texts between the commas where peers are listed: a text for each peer in its turn, with
white space around it, and texts of white space only as one likes. -/
inductive Written : List Address → List String → Prop
  | nobody : Written [] []
  | blank {peers : List Address} {texts : List String} {white : String}
      (blank : Text.isBlank white = true) (rest : Written peers texts) : Written peers (white :: texts)
  | peer {peer : Address} {peers : List Address} {texts : List String} {before after : String}
      (whiteBefore : Text.isBlank before = true) (whiteAfter : Text.isBlank after = true)
      (rest : Written peers texts) : Written (peer :: peers) ((before ++ peer.text ++ after) :: texts)

/-- Pieces are the texts in which the peers that they name are written. -/
theorem written_peersIn (pieces : List (List Char)) :
    Written (peersIn pieces) (pieces.map String.ofList) := by
  induction pieces with
  | nil => exact .nobody
  | cons piece rest inductionHypothesis =>
      cases blank : piece.all isBlankChar with
      | true =>
          have white : Text.isBlank (String.ofList piece) = true := by
            rwa [Text.isBlank, String.toList_ofList]
          rw [peersIn_cons_of_blank blank, List.map_cons]
          exact .blank white inductionHypothesis
      | false =>
          obtain ⟨before, after, whiteBefore, whiteAfter, whole⟩ := Text.exists_around_trimChars piece
          have around : String.ofList piece = String.ofList before ++ nameIn piece ++ String.ofList after := by
            rw [← String.toList_inj]
            simpa [toList_nameIn] using whole
          rw [peersIn_cons_of_named blank, List.map_cons, around]
          refine .peer ?_ ?_ inductionHypothesis
          · rwa [Text.isBlank, String.toList_ofList]
          · rwa [Text.isBlank, String.toList_ofList]

/-- Pieces without a comma, of which none offends, name peers that can stand in a list. -/
theorem nameable_of_mem_peersIn {pieces : List (List Char)} (whole : ∀ piece ∈ pieces, ',' ∉ piece)
    (passed : ∀ piece ∈ pieces, offends piece = false) {peer : Address} (member : peer ∈ peersIn pieces) :
    Nameable peer := by
  obtain ⟨piece, kept, rfl⟩ := List.mem_map.1 member
  obtain ⟨there, shown⟩ := List.mem_filter.1 kept
  have named : piece.all isBlankChar = false := by simpa using shown
  constructor
  case named =>
    rwa [Address.isBlank, Text.isBlank, toList_nameIn, Text.all_isBlankChar_trimChars]
  case trimmed =>
    rw [toList_nameIn]
    exact Text.trimmed_trimChars piece
  case whole =>
    rw [toList_nameIn, Text.mem_trimChars_iff (by decide)]
    exact whole piece there
  case colon =>
    rw [toList_nameIn, Text.mem_trimChars_iff (by decide)]
    exact offends_eq_false_iff.1 (passed piece there) named

/-- The peers of a text can stand in a list, … -/
theorem nameable_of_read {text : String} {peers : List Address} (listed : read text = .ok peers) :
    ∀ peer ∈ peers, Nameable peer := by
  obtain ⟨none, rfl⟩ := read_eq_ok_iff.1 listed
  intro peer
  refine nameable_of_mem_peersIn (fun piece member => ?_) (find?_offends_eq_none_iff.1 none)
  rw [← pieces_eq_splitOn] at member
  exact not_mem_of_mem_pieces member

/-- … and are written in it. -/
theorem exists_written_of_read {text : String} {peers : List Address} (listed : read text = .ok peers) :
    ∃ texts, Written peers texts ∧ text = ",".intercalate texts := by
  refine ⟨(text.toList.splitOn ',').map String.ofList, ?_, ?_⟩
  · rw [(read_eq_ok_iff.1 listed).2]
    exact written_peersIn _
  · rw [← String.toList_inj, String.toList_intercalate, List.map_map]
    simp [Function.comp_def]

section Around

variable {peer : Address} {before after : String}

/-- With white space around it, a peer is still what the piece says. -/
theorem Nameable.nameIn_around (nameable : Nameable peer) (whiteBefore : Text.isBlank before = true)
    (whiteAfter : Text.isBlank after = true) :
    nameIn (before ++ peer.text ++ after).toList = peer.text := by
  rw [← String.toList_inj, toList_nameIn, Text.trimChars_eq_iff]
  refine ⟨nameable.trimmed, before.toList, after.toList, whiteBefore, whiteAfter, ?_⟩
  rw [String.toList_append, String.toList_append]

theorem Nameable.colon_around (nameable : Nameable peer) :
    ':' ∈ (before ++ peer.text ++ after).toList := by
  simp [nameable.colon]

theorem Nameable.named_around (nameable : Nameable peer) :
    (before ++ peer.text ++ after).toList.all isBlankChar = false := by
  by_contra white
  exact Text.not_mem_of_white (by decide) (Bool.not_eq_false _ ▸ white) nameable.colon_around

theorem Nameable.whole_around (nameable : Nameable peer) (whiteBefore : Text.isBlank before = true)
    (whiteAfter : Text.isBlank after = true) : ',' ∉ (before ++ peer.text ++ after).toList := by
  have shown : isBlankChar ',' = false := by decide
  simp [nameable.whole, Text.not_mem_of_white shown whiteBefore, Text.not_mem_of_white shown whiteAfter]

end Around

section Written

variable {peers : List Address} {texts : List String}

/-- Where peers are written there are no commas but those between the texts. -/
theorem Written.whole (written : Written peers texts) (nameable : ∀ peer ∈ peers, Nameable peer) :
    ∀ text ∈ texts, ',' ∉ text.toList := by
  induction written with
  | nobody => exact fun _ member => absurd member List.not_mem_nil
  | blank blank _ inductionHypothesis =>
      exact List.forall_mem_cons.2 ⟨Text.not_mem_of_white (by decide) blank, inductionHypothesis nameable⟩
  | peer whiteBefore whiteAfter _ inductionHypothesis =>
      obtain ⟨first, others⟩ := List.forall_mem_cons.1 nameable
      exact List.forall_mem_cons.2 ⟨first.whole_around whiteBefore whiteAfter, inductionHypothesis others⟩

/-- Where peers are written nothing offends, … -/
theorem Written.passed (written : Written peers texts) (nameable : ∀ peer ∈ peers, Nameable peer) :
    ∀ text ∈ texts, offends text.toList = false := by
  induction written with
  | nobody => exact fun _ member => absurd member List.not_mem_nil
  | blank blank _ inductionHypothesis =>
      refine List.forall_mem_cons.2 ⟨offends_eq_false_iff.2 fun named => ?_, inductionHypothesis nameable⟩
      exact absurd blank (Bool.eq_false_iff.1 named)
  | peer _ _ _ inductionHypothesis =>
      obtain ⟨first, others⟩ := List.forall_mem_cons.1 nameable
      refine List.forall_mem_cons.2 ⟨offends_eq_false_iff.2 fun _ => ?_, inductionHypothesis others⟩
      exact first.colon_around

/-- … and the texts name the peers. -/
theorem Written.peersIn_eq (written : Written peers texts) (nameable : ∀ peer ∈ peers, Nameable peer) :
    peersIn (texts.map String.toList) = peers := by
  induction written with
  | nobody => rfl
  | blank blank _ inductionHypothesis =>
      rw [List.map_cons, peersIn_cons_of_blank blank, inductionHypothesis nameable]
  | peer whiteBefore whiteAfter _ inductionHypothesis =>
      obtain ⟨first, others⟩ := List.forall_mem_cons.1 nameable
      rw [List.map_cons, peersIn_cons_of_named first.named_around,
        first.nameIn_around whiteBefore whiteAfter, inductionHypothesis others]

/-- Peers that are written with commas in between are read back. -/
theorem Written.read_eq (written : Written peers texts) (nameable : ∀ peer ∈ peers, Nameable peer) :
    read (",".intercalate texts) = .ok peers := by
  cases texts with
  | nil =>
      cases written
      rfl
  | cons first rest =>
      have split : (",".intercalate (first :: rest)).toList.splitOn ',' = (first :: rest).map String.toList := by
        rw [String.toList_intercalate]
        refine List.splitOn_intercalate ',' ?_ (List.cons_ne_nil _ _)
        intro piece member
        obtain ⟨text, there, rfl⟩ := List.mem_map.1 member
        exact written.whole nameable text there
      rw [read_eq_ok_iff, split, written.peersIn_eq nameable]
      refine ⟨find?_offends_eq_none_iff.2 fun piece member => ?_, rfl⟩
      obtain ⟨text, there, rfl⟩ := List.mem_map.1 member
      exact written.passed nameable text there

end Written

/-! ## The law -/

/-- What becomes of a text that is read as a list of peers. -/
structure PeersRead (text : String) : Prop where
  /-- It is accepted just if each piece has a colon, apart from those of white space only. -/
  accepted : (∃ peers, read text = .ok peers) ↔
    ∀ piece ∈ text.toList.splitOn ',', piece.all isBlankChar = false → ':' ∈ piece
  /-- The peers then are the pieces with a colon, each trimmed, in order and as often as they come. -/
  listed : ∀ peers, read text = .ok peers → peers =
    ((text.toList.splitOn ',').filter fun piece => !piece.all isBlankChar).map fun piece =>
      ⟨Text.trim (String.ofList piece)⟩
  /-- Otherwise the fault is one of the configuration, and quotes the first piece that offends,
  trimmed. -/
  refused : ∀ fault, read text = .error fault ↔
    ∃ piece, (text.toList.splitOn ',').find? offends = some piece ∧
      fault = .config ("invalid peer " ++ Text.quoted (Text.trim (String.ofList piece)) ++
        ", expected host:port")
  /-- So the fault tells what that piece says, since nothing else is quoted alike. -/
  told : ∀ place, read text = .error (refusal place) ↔
    ((text.toList.splitOn ',').find? offends).map nameIn = some place
  /-- Each peer is not blank, is trimmed, and has a colon but no comma. -/
  nameable : ∀ peers, read text = .ok peers → ∀ peer ∈ peers, Nameable peer
  /-- The texts that list such peers are just those in which they are written, with commas in
  between. -/
  written : ∀ peers, read text = .ok peers ↔ (∀ peer ∈ peers, Nameable peer) ∧
    ∃ texts, Written peers texts ∧ text = ",".intercalate texts

theorem peers_read (text : String) : PeersRead text := by
  refine ⟨?accepted, fun _ listed => (read_eq_ok_iff.1 listed).2, fun _ => read_eq_error_iff, ?told,
    fun _ => nameable_of_read, ?written⟩
  case accepted =>
    simp only [read_eq_ok_iff, exists_and_left, exists_eq, and_true, find?_offends_eq_none_iff,
      offends_eq_false_iff]
  case told =>
    intro place
    rw [read_eq_error_iff, Option.map_eq_some_iff]
    simp only [refusal_injective.eq_iff, eq_comm]
  case written =>
    intro peers
    constructor
    · exact fun listed => ⟨nameable_of_read listed, exists_written_of_read listed⟩
    · rintro ⟨nameable, texts, written, rfl⟩
      exact written.read_eq nameable

example : read " a:1 ,,\u2003b:2\t,a:1, " = .ok [⟨"a:1"⟩, ⟨"b:2"⟩, ⟨"a:1"⟩] := by rfl

example : read "a:1, b\tc ,d" = .error (refusal "b\tc") := by rfl

end Handover.Command.Peers

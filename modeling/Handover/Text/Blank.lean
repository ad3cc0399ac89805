/-!
Contract: white space as Unicode's White_Space property, and trimming by it.

Owns: the table of the property, blank texts, and `trim`, which removes the
white space at both ends of a text and nothing else.

Does not own: any narrower idea of white space. The blanks of a structured text
format are four ASCII characters and are tested where that format is read.
-/

set_option autoImplicit false

namespace Handover.Text

/-- The ranges of the White_Space property, both ends included. -/
def blankRanges : List (Nat × Nat) :=
  [(0x0009, 0x000D), (0x0020, 0x0020), (0x0085, 0x0085), (0x00A0, 0x00A0), (0x1680, 0x1680),
    (0x2000, 0x200A), (0x2028, 0x2029), (0x202F, 0x202F), (0x205F, 0x205F), (0x3000, 0x3000)]

def isBlankChar (char : Char) : Bool :=
  blankRanges.any fun (low, high) => low ≤ char.toNat && char.toNat ≤ high

/-- A text with nothing in it but white space. -/
def isBlank (text : String) : Bool := text.toList.all isBlankChar

/-- The characters left once the blank ones at both ends are gone. -/
def trimChars (chars : List Char) : List Char :=
  ((chars.dropWhile isBlankChar).reverse.dropWhile isBlankChar).reverse

def trim (text : String) : String := String.ofList (trimChars text.toList)

private theorem dropWhile_eq_nil_iff_all (chars : List Char) :
    chars.dropWhile isBlankChar = [] ↔ chars.all isBlankChar = true := by
  induction chars with
  | nil => simp
  | cons head tail inductionHypothesis =>
      by_cases blank : isBlankChar head
      · simp [blank, inductionHypothesis]
      · simp [blank]

private theorem all_of_all_dropWhile (chars : List Char)
    (rest : (chars.dropWhile isBlankChar).all isBlankChar = true) :
    chars.all isBlankChar = true := by
  induction chars with
  | nil => rfl
  | cons head tail inductionHypothesis =>
      by_cases blank : isBlankChar head
      · rw [List.dropWhile_cons_of_pos blank] at rest
        simp only [List.all_cons, blank, Bool.true_and]
        exact inductionHypothesis rest
      · rwa [List.dropWhile_cons_of_neg blank] at rest

/-- Trimming leaves nothing exactly of a blank text. -/
theorem trimChars_eq_nil_iff (chars : List Char) :
    trimChars chars = [] ↔ chars.all isBlankChar = true := by
  unfold trimChars
  rw [List.reverse_eq_nil_iff, dropWhile_eq_nil_iff_all, List.all_reverse]
  constructor
  · exact all_of_all_dropWhile chars
  · intro all
    rw [(dropWhile_eq_nil_iff_all chars).2 all]
    rfl

end Handover.Text

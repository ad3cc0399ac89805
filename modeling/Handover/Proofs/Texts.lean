import Handover.Text.Blank
import Handover.Text.Quoted
import Mathlib.Data.List.DropRight

/-!
Contract: trimmed texts and quoted texts.

Owns: what trimming leaves of a text, told by where its white space stands; and that a quoted
text can be read back, because no character is written in a way in which the writing of another
one begins.
-/

set_option autoImplicit false

namespace Handover.Text

/-! ## Trimming -/

/-- No white space stands at either end. -/
structure Trimmed (chars : List Char) : Prop where
  head : ∀ char ∈ chars.head?, isBlankChar char = false
  last : ∀ char ∈ chars.getLast?, isBlankChar char = false

section Trimming

variable {chars before core after : List Char}

theorem trimChars_eq_rdropWhile (chars : List Char) :
    trimChars chars = (chars.dropWhile isBlankChar).rdropWhile isBlankChar := rfl

/-- Trimming leaves a trimmed text. -/
theorem trimmed_trimChars (chars : List Char) : Trimmed (trimChars chars) := by
  rw [trimChars_eq_rdropWhile]
  constructor
  case head =>
    -- What is cut off at the end does not change the head, as long as there is one.
    intro char isHead
    obtain ⟨cut, whole⟩ := List.rdropWhile_prefix isBlankChar (l := chars.dropWhile isBlankChar)
    have first : (chars.dropWhile isBlankChar).head? = some char := by
      rw [← whole, List.head?_append, Option.mem_def.1 isHead, Option.some_or]
    have shown := List.head?_dropWhile_not isBlankChar chars
    rwa [first] at shown
  case last =>
    intro char isLast
    obtain ⟨filled, rfl⟩ := List.mem_getLast?_eq_getLast isLast
    exact Bool.eq_false_iff.2 (List.rdropWhile_last_not isBlankChar _ filled)

/-- What trimming leaves stands in the text with white space around it. -/
theorem exists_around_trimChars (chars : List Char) : ∃ before after : List Char,
    before.all isBlankChar = true ∧ after.all isBlankChar = true ∧
      chars = before ++ trimChars chars ++ after := by
  have whiteAfter : ((chars.dropWhile isBlankChar).rtakeWhile isBlankChar).all isBlankChar = true :=
    List.all_eq_true.2 fun _ member => List.mem_rtakeWhile_imp member
  refine ⟨chars.takeWhile isBlankChar, _, List.all_takeWhile, whiteAfter, ?_⟩
  rw [trimChars_eq_rdropWhile, List.append_assoc, List.rdropWhile_append_rtakeWhile,
    List.takeWhile_append_dropWhile]

theorem trimChars_of_trimmed (trimmed : Trimmed chars) : trimChars chars = chars := by
  have starts : chars.dropWhile isBlankChar = chars := by
    cases chars with
    | nil => rfl
    | cons char rest =>
        have shown := trimmed.head char rfl
        rw [List.dropWhile_cons_of_neg (Bool.eq_false_iff.1 shown)]
  rw [trimChars_eq_rdropWhile, starts, List.rdropWhile_eq_self_iff]
  intro filled
  exact Bool.eq_false_iff.1 (trimmed.last _ (List.getLast_mem_getLast? filled))

/-- White space in front goes. -/
theorem trimChars_append_left (white : before.all isBlankChar = true) :
    trimChars (before ++ core) = trimChars core := by
  unfold trimChars
  rw [List.dropWhile_append_of_pos (List.all_eq_true.1 white)]

/-- White space behind goes. -/
theorem trimChars_append_right (white : after.all isBlankChar = true) :
    trimChars (core ++ after) = trimChars core := by
  cases blank : core.all isBlankChar with
  | true =>
      have whole : (core ++ after).all isBlankChar = true := by rw [List.all_append, blank, white]; rfl
      rw [(trimChars_eq_nil_iff _).2 whole, (trimChars_eq_nil_iff _).2 blank]
  | false =>
      have filled : ¬ (core.dropWhile isBlankChar).isEmpty = true := by
        intro empty
        rw [List.isEmpty_iff, List.dropWhile_eq_nil_iff] at empty
        exact Bool.eq_false_iff.1 blank (List.all_eq_true.2 empty)
      -- The cut in front ends within the core, so the white space behind is cut off as a whole.
      unfold trimChars
      rw [List.dropWhile_append, if_neg filled, List.reverse_append, List.dropWhile_append_of_pos]
      simpa using white

/-- Trimming leaves the one trimmed text that stands in the text with white space around it. -/
theorem trimChars_eq_iff : trimChars chars = core ↔
    Trimmed core ∧ ∃ before after : List Char, before.all isBlankChar = true ∧
      after.all isBlankChar = true ∧ chars = before ++ core ++ after := by
  constructor
  · rintro rfl
    exact ⟨trimmed_trimChars chars, exists_around_trimChars chars⟩
  · rintro ⟨trimmed, before, after, whiteBefore, whiteAfter, rfl⟩
    rw [trimChars_append_right whiteAfter, trimChars_append_left whiteBefore,
      trimChars_of_trimmed trimmed]

theorem not_mem_of_white {char : Char} {white : List Char} (shown : isBlankChar char = false)
    (blank : white.all isBlankChar = true) : char ∉ white := fun member =>
  Bool.eq_false_iff.1 shown (List.all_eq_true.1 blank char member)

/-- Trimming takes nothing but white space. -/
theorem mem_trimChars_iff {char : Char} (shown : isBlankChar char = false) :
    char ∈ trimChars chars ↔ char ∈ chars := by
  obtain ⟨before, after, whiteBefore, whiteAfter, whole⟩ := exists_around_trimChars chars
  conv_rhs => rw [whole]
  rw [List.mem_append, List.mem_append, or_iff_left (not_mem_of_white shown whiteAfter),
    or_iff_right (not_mem_of_white shown whiteBefore)]

/-- Trimming leaves a text blank or not blank. -/
theorem all_isBlankChar_trimChars (chars : List Char) :
    (trimChars chars).all isBlankChar = chars.all isBlankChar := by
  rw [Bool.eq_iff_iff, ← trimChars_eq_nil_iff, ← trimChars_eq_nil_iff,
    trimChars_of_trimmed (trimmed_trimChars chars)]

theorem isBlank_trim (text : String) : isBlank (trim text) = isBlank text := by
  rw [isBlank, trim, String.toList_ofList, all_isBlankChar_trimChars, isBlank]

end Trimming

/-! ## Quoting -/

/-- The characters that are written as a backslash and one more character. -/
def shortEscapes : List (Char × Char) :=
  [('\x00', '0'), ('\t', 't'), ('\r', 'r'), ('\n', 'n'), ('\\', '\\'), ('"', '"')]

/-- The ways in which a quoted text has a character. -/
inductive Writes (char : Char) : List Char → Prop
  | plain (other : char ≠ '\\') : Writes char [char]
  | short {mark : Char} (listed : (char, mark) ∈ shortEscapes) : Writes char ['\\', mark]
  | byNumber : Writes char (codePoint char)

theorem writes_quotedChar (char : Char) : Writes char (quotedChar char) := by
  unfold quotedChar
  split_ifs with zero tab feed newline backslash quote unshown
  · exact .short (by subst zero; decide)
  · exact .short (by subst tab; decide)
  · exact .short (by subst feed; decide)
  · exact .short (by subst newline; decide)
  · exact .short (by subst backslash; decide)
  · exact .short (by subst quote; decide)
  · exact .byNumber
  · exact .plain backslash

theorem hexDigit_injective {left right : Nat} (leftDigit : left < 16) (rightDigit : right < 16)
    (same : left.digitChar = right.digitChar) : left = right := by
  have all : ∀ left < 16, ∀ right < 16, left.digitChar = right.digitChar → left = right := by decide
  exact all left leftDigit right rightDigit same

theorem hexDigits_injective {left right : Nat} (same : Nat.toDigits 16 left = Nat.toDigits 16 right) :
    left = right := by
  have base : 1 < 16 := by decide
  induction left using Nat.strongRecOn generalizing right with
  | ind left inductionHypothesis =>
      rcases Nat.lt_or_ge left 16 with leftDigit | leftLarge <;>
        rcases Nat.lt_or_ge right 16 with rightDigit | rightLarge
      · rw [Nat.toDigits_of_lt_base leftDigit, Nat.toDigits_of_lt_base rightDigit] at same
        exact hexDigit_injective leftDigit rightDigit (List.singleton_inj.1 same)
      · rw [Nat.toDigits_of_lt_base leftDigit, Nat.toDigits_of_base_le base rightLarge] at same
        obtain ⟨front, -⟩ := List.append_inj' (show [] ++ [_] = _ from same) rfl
        exact absurd front.symm Nat.toDigits_ne_nil
      · rw [Nat.toDigits_of_lt_base rightDigit, Nat.toDigits_of_base_le base leftLarge] at same
        obtain ⟨front, -⟩ := List.append_inj' (show _ = [] ++ [_] from same) rfl
        exact absurd front Nat.toDigits_ne_nil
      · rw [Nat.toDigits_of_base_le base leftLarge, Nat.toDigits_of_base_le base rightLarge] at same
        obtain ⟨front, last⟩ := List.append_inj' same rfl
        have smaller : left / 16 < left := Nat.div_lt_self (by omega) base
        have quotients : left / 16 = right / 16 := inductionHypothesis _ smaller front
        have remainders : left % 16 = right % 16 :=
          hexDigit_injective (Nat.mod_lt _ (by decide)) (Nat.mod_lt _ (by decide))
            (List.singleton_inj.1 last)
        exact Nat.ext_div_mod quotients remainders

theorem brace_not_mem_hexDigits (number : Nat) : '\x7d' ∉ Nat.toDigits 16 number := by
  have digits : ∀ digit < 16, '\x7d' ≠ digit.digitChar := by decide
  induction number using Nat.base_induction 16 (by decide) with
  | single digit small =>
      rw [Nat.toDigits_of_lt_base small, List.mem_singleton]
      exact digits digit small
  | digit front digit small positive inductionHypothesis =>
      rw [← Nat.toDigits_append_toDigits (by decide) positive small, Nat.toDigits_of_lt_base small,
        List.mem_append, List.mem_singleton, not_or]
      exact ⟨inductionHypothesis, digits digit small⟩

theorem codePoint_append (char : Char) (rest : List Char) : codePoint char ++ rest =
    ['\\', 'u', '\x7b'] ++ (Nat.toDigits 16 char.toNat ++ '\x7d' :: rest) := by
  simp [codePoint]

/-- The digits of a number end at the brace, which is no digit. -/
theorem codePoint_append_inj {char other : Char} {rest later : List Char}
    (same : codePoint char ++ rest = codePoint other ++ later) : char = other ∧ rest = later := by
  rw [codePoint_append, codePoint_append] at same
  have behind := List.append_cancel_left same
  have split := congrArg (List.splitOn '\x7d') behind
  rw [List.splitOn_append_cons_self_of_not_mem (brace_not_mem_hexDigits _),
    List.splitOn_append_cons_self_of_not_mem (brace_not_mem_hexDigits _)] at split
  obtain ⟨digits, -⟩ := List.cons.inj split
  rw [digits] at behind
  obtain ⟨-, rests⟩ := List.cons.inj (List.append_cancel_left behind)
  exact ⟨Char.toNat_inj.1 (hexDigits_injective digits), rests⟩

/-- Where two texts begin with the writing of a character, they begin with the same one. -/
theorem Writes.unique {char other : Char} {written more rest later : List Char}
    (writes : Writes char written) (writesOther : Writes other more)
    (same : written ++ rest = more ++ later) : char = other ∧ rest = later := by
  have marked : ∀ one ∈ shortEscapes, ∀ another ∈ shortEscapes, one.2 = another.2 → one.1 = another.1 := by
    decide
  have unnumbered : ∀ one ∈ shortEscapes, one.2 ≠ 'u' := by decide
  cases writes with
  | plain shown =>
      cases writesOther with
      | plain _ => exact List.cons.inj same
      | short _ => exact absurd (List.cons.inj same).1 shown
      | byNumber => exact absurd (List.cons.inj same).1 shown
  | short listed =>
      cases writesOther with
      | plain shown => exact absurd (List.cons.inj same).1.symm shown
      | short listedOther =>
          obtain ⟨mark, rests⟩ := List.cons.inj (List.cons.inj same).2
          exact ⟨marked _ listed _ listedOther mark, rests⟩
      | byNumber =>
          obtain ⟨mark, -⟩ := List.cons.inj (List.cons.inj same).2
          exact absurd mark (unnumbered _ listed)
  | byNumber =>
      cases writesOther with
      | plain shown => exact absurd (List.cons.inj same).1.symm shown
      | short listed =>
          obtain ⟨mark, -⟩ := List.cons.inj (List.cons.inj same).2
          exact absurd mark.symm (unnumbered _ listed)
      | byNumber => exact codePoint_append_inj same

theorem quotedChar_ne_nil (char : Char) : quotedChar char ≠ [] := by
  intro none
  have writes := writes_quotedChar char
  rw [none] at writes
  cases writes

theorem quotedChars_injective : Function.Injective (List.flatMap quotedChar) := by
  intro chars
  induction chars with
  | nil =>
      intro others same
      cases others with
      | nil => rfl
      | cons other later =>
          have none := (List.append_eq_nil_iff.1 (show _ ++ _ = [] from same.symm)).1
          exact absurd none (quotedChar_ne_nil other)
  | cons char rest inductionHypothesis =>
      intro others same
      cases others with
      | nil =>
          have none := (List.append_eq_nil_iff.1 (show _ ++ _ = [] from same)).1
          exact absurd none (quotedChar_ne_nil char)
      | cons other later =>
          obtain ⟨rfl, rests⟩ := (writes_quotedChar char).unique (writes_quotedChar other) same
          rw [inductionHypothesis rests]

/-- A quoted text can be read back. -/
theorem quoted_injective : Function.Injective quoted := by
  intro text other same
  have written := List.append_cancel_right (List.cons.inj (String.ofList_injective same)).2
  exact String.toList_inj.1 (quotedChars_injective written)

end Handover.Text

import Handover.Text.Unshown

/-!
Contract: texts quoted for messages.

A quoted text stands between double quotes. What would not show, or would end the
text, is written as an escape: the shortest one there is, or else the code point.
-/

set_option autoImplicit false

namespace Handover.Text

/-- The escape of a character by its code point. -/
def codePoint (char : Char) : List Char :=
  ['\\', 'u', '\x7b'] ++ Nat.toDigits 16 char.toNat ++ ['\x7d']

/-- How a character is written in a quoted text. -/
def quotedChar (char : Char) : List Char :=
  if char = '\x00' then ['\\', '0']
  else if char = '\t' then ['\\', 't']
  else if char = '\r' then ['\\', 'r']
  else if char = '\n' then ['\\', 'n']
  else if char = '\\' then ['\\', '\\']
  else if char = '"' then ['\\', '"']
  else if isUnshown char then codePoint char
  else [char]

def quoted (text : String) : String :=
  String.ofList ('"' :: text.toList.flatMap quotedChar ++ ['"'])

end Handover.Text

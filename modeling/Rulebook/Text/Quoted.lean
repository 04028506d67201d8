import Rulebook.Text.Unmarked

/-!
# Quoting a text inside a message

A message shows a text between double quotes so that nothing of it is lost to the eye: quotes,
backslashes and the common controls are escaped with a backslash, and every other character that
leaves no mark of its own, or only marks the character before it, is shown by its code point.
-/

namespace Rulebook.Text

/-- How a character stands inside a quoted text. -/
def quotedChar (c : Char) : List Char :=
  if c = '"' then "\\\"".toList
  else if c = '\\' then "\\\\".toList
  else if c = '\n' then "\\n".toList
  else if c = '\r' then "\\r".toList
  else if c = '\t' then "\\t".toList
  else if c = '\x00' then "\\0".toList
  else if isUnmarked c then
    '\\' :: 'u' :: '\x7b' :: (Nat.toDigits 16 c.toNat ++ ['\x7d'])
  else [c]

/-- A text between double quotes. -/
def quoted (text : String) : String :=
  "\"" ++ String.ofList (text.toList.flatMap quotedChar) ++ "\""

end Rulebook.Text

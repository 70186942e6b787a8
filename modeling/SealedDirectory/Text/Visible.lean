import SealedDirectory.Text.Hidden

/-!
# Visible form of a text

A text that is quoted inside a message must show every character.  Quotes and
backslashes are escaped, and a character that would print nothing, join the one
before it or look like a plain space is shown by its number.
-/

namespace SealedDirectory.Text

def visibleChar (char : Char) : List Char :=
  if char = '"' then ['\\', '"']
  else if char = '\\' then ['\\', '\\']
  else if char = '\n' then ['\\', 'n']
  else if char = '\r' then ['\\', 'r']
  else if char = '\t' then ['\\', 't']
  else if char.toNat = 0 then ['\\', '0']
  else if isHidden char then
    '\\' :: 'u' :: '{' :: Nat.toDigits 16 char.toNat ++ ['}']
  else [char]

/-- A text between quotes, every character of it visible. -/
def visible (text : String) : String :=
  String.ofList ('"' :: text.toList.flatMap visibleChar ++ ['"'])

end SealedDirectory.Text

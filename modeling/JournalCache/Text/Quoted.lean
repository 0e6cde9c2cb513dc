import JournalCache.Text.Visible

/-!
# Quoted texts

A text between double quotes, for people to read. The quote, the backslash and the four control
characters that have a letter are written as a backslash and that letter; every other character
that has no visible form, or that would join the quote or letter before it, is written as its code
point in braces. Single quotes stand for themselves.
-/

namespace JournalCache

namespace Text

def hexadecimal (n : Nat) : List Char := Nat.toDigits 16 n

def quotedChar (c : Char) : List Char :=
  if c.toNat = 0 then ['\\', '0']
  else if c = '\t' then ['\\', 't']
  else if c = '\r' then ['\\', 'r']
  else if c = '\n' then ['\\', 'n']
  else if c = '\\' then ['\\', '\\']
  else if c = '"' then ['\\', '"']
  else if isExtending c || isInvisible c then
    ['\\', 'u', '\x7b'] ++ hexadecimal c.toNat ++ ['\x7d']
  else [c]

def quoted (s : String) : String :=
  String.ofList ('"' :: s.toList.flatMap quotedChar ++ ['"'])

/-- Quoted texts, separated by commas, in square brackets. -/
def quotedList (ss : List String) : String :=
  "[" ++ ", ".intercalate (ss.map quoted) ++ "]"

def flag (b : Bool) : String := if b then "true" else "false"

end Text

end JournalCache

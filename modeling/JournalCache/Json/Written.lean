import JournalCache.Json.Basic

/-!
# The written form of JSON values

A value is written without blanks. In a string only the quote, the backslash and the characters
below U+0020 are escaped: by a letter where there is one, else by four lower-case hexadecimal
digits. A number that is not written as a whole number and a string that spells no characters carry
no more than that, and each is written as one text that reads back as such.
-/

namespace JournalCache

namespace Json

/-- A lower-case hexadecimal digit. -/
def hexChar (n : Nat) : Char := Nat.digitChar n

def escaped (c : Char) : List Char :=
  if c = '"' then ['\\', '"']
  else if c = '\\' then ['\\', '\\']
  else if c = '\x08' then ['\\', 'b']
  else if c = '\t' then ['\\', 't']
  else if c = '\n' then ['\\', 'n']
  else if c = '\x0c' then ['\\', 'f']
  else if c = '\r' then ['\\', 'r']
  else if c.toNat < 0x20 then
    ['\\', 'u', '0', '0', hexChar (c.toNat / 16), hexChar (c.toNat % 16)]
  else [c]

def writtenText : Option String → List Char
  | some s => '"' :: s.toList.flatMap escaped ++ ['"']
  | none => "\"\\ud800\"".toList

def writtenNumber : Option Int → List Char
  | some n => Decimal.signed n
  | none => ['-', '0']

def Token.written : Token → List Char
  | .openBrace => ['\x7b']
  | .closeBrace => ['\x7d']
  | .openBracket => ['[']
  | .closeBracket => [']']
  | .comma => [',']
  | .colon => [':']
  | .null => "null".toList
  | .bool true => "true".toList
  | .bool false => "false".toList
  | .number n => writtenNumber n
  | .text s => writtenText s

def written (j : Json) : List Char := j.tokens.flatMap Token.written

def print (j : Json) : String := String.ofList j.written

def parse? (s : String) : Option Json := read? s.toList

end Json

end JournalCache

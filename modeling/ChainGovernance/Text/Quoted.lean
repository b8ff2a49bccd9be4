import ChainGovernance.Text.Hidden

/-!
Texts in double quotes, the way messages quote what they were given.

A quote and a backslash are written behind a backslash, and so are the four controls that have a
letter of their own. A character without a visible form is written as its code point.
-/

namespace ChainGovernance.Text

/-- The lower-case hexadecimal digits of a number, without leading zeros. -/
def codePointDigits (n : Nat) : List Char := Nat.toDigits 16 n

/-- How a character is written inside the quotes. -/
def quotedChar (c : Char) : List Char :=
  if c = '"' then ['\\', '"']
  else if c = '\\' then ['\\', '\\']
  else if c = '\n' then ['\\', 'n']
  else if c = '\r' then ['\\', 'r']
  else if c = '\t' then ['\\', 't']
  else if c.toNat = 0 then ['\\', '0']
  else if isHidden c then ['\\', 'u', '\x7b'] ++ codePointDigits c.toNat ++ ['\x7d']
  else [c]

/-- The text in quotes. -/
def quoted (text : String) : String :=
  String.ofList ('"' :: text.toList.flatMap quotedChar ++ ['"'])

end ChainGovernance.Text

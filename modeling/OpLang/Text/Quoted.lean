/-
**Quoted texts.**

A quoted text stands between double quotes. A quote and a backslash inside it are written with a
backslash, four control characters have a letter of their own, and a character that is combining or
not printable is written as its code point in hexadecimal between braces. All other characters stand
for themselves, the single quote among them.
-/

import OpLang.Text.GraphemeExtend
import OpLang.Text.Printable

namespace OpLang.Text

/-- A character written as its code point. -/
def codePoint (c : Char) : List Char :=
  '\\' :: 'u' :: '{' :: (Nat.toDigits 16 c.toNat ++ ['}'])

/-- The form of one character inside a quoted text. -/
def quotedChar (c : Char) : List Char :=
  if c == '\x00' then ['\\', '0']
  else if c == '\t' then ['\\', 't']
  else if c == '\n' then ['\\', 'n']
  else if c == '\r' then ['\\', 'r']
  else if c == '"' then ['\\', '"']
  else if c == '\\' then ['\\', '\\']
  else if isCombining c || !isPrintable c then codePoint c
  else [c]

/-- A text between double quotes, each character in its quoted form. -/
def quoted (text : String) : String :=
  String.ofList ('"' :: (text.toList.flatMap quotedChar ++ ['"']))

end OpLang.Text

import StreamProgress.Text.Unprintable

/-!
# Quoted text in messages

A text that a message repeats from its input stands between double quotes, in a form that shows
every character: a quote, a backslash and the common control characters have short escapes, any
other character that is not shown as itself is written by its code point in hexadecimal.

The apostrophe stands as it is, since the text is enclosed by double quotes.
-/

namespace StreamProgress

namespace Quoted

/-- How one character stands between double quotes. -/
def ofChar (c : Char) : List Char :=
  if c = '\x00' then ['\\', '0']
  else if c = '\t' then ['\\', 't']
  else if c = '\r' then ['\\', 'r']
  else if c = '\n' then ['\\', 'n']
  else if c = '\\' then ['\\', '\\']
  else if c = '"' then ['\\', '"']
  else if Unprintable.contains c then
    ['\\', 'u', '\x7b'] ++ Nat.toDigits 16 c.toNat ++ ['\x7d']
  else [c]

/-- A text between double quotes, every character of it visible. -/
def ofString (s : String) : String :=
  String.ofList ('"' :: s.toList.flatMap ofChar ++ ['"'])

example : ofString "a\tb\\" = "\"a\\tb\\\\\"" := by decide +kernel

example : ofString "e\u0301" = "\"e\\u\x7b301\x7d\"" := by decide +kernel

end Quoted

end StreamProgress

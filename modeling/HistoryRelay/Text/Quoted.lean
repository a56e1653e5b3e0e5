import HistoryRelay.Text.Unshown

/-! Texts shown in quotes inside messages. A reader sees where the text ends and every
character that would not show: the quote, the backslash and the common controls get a
backslash, other unshown characters their code point. -/
namespace HistoryRelay.Text

def hex (n : Nat) : String := String.ofList (Nat.toDigits 16 n)

def quotedChar (c : Char) : String :=
  if c = '\x00' then "\\0"
  else if c = '\t' then "\\t"
  else if c = '\r' then "\\r"
  else if c = '\n' then "\\n"
  else if c = '"' then "\\\""
  else if c = '\\' then "\\\\"
  else if isUnshown c then "\\u\x7b" ++ hex c.toNat ++ "\x7d"
  else String.singleton c

def quoted (s : String) : String := "\"" ++ String.join (s.toList.map quotedChar) ++ "\""

end HistoryRelay.Text

import HistoryRelay.Json
import HistoryRelay.Text.Quoted

/-! JSON values as text, without blanks, members in their order. Strings keep every
character but the quote, the backslash and the controls. A value without a text of its
own, such as a broken one, is printed as null. -/
namespace HistoryRelay.Json
open Text

def escapedChar (c : Char) : String :=
  if c = '"' then "\\\""
  else if c = '\\' then "\\\\"
  else if c = '\n' then "\\n"
  else if c = '\r' then "\\r"
  else if c = '\t' then "\\t"
  else if c = '\x08' then "\\b"
  else if c = '\x0c' then "\\f"
  else if c.toNat < 0x20 then "\\u" ++ (if c.toNat < 0x10 then "000" else "00") ++ hex c.toNat
  else String.singleton c

def quotedText (s : String) : String := "\"" ++ String.join (s.toList.map escapedChar) ++ "\""

mutual

def render : Json → String
  | .bool b => if b then "true" else "false"
  | .number (.integer n) => toString n
  | .number (.real numeral) => numeral
  | .string (some s) => quotedText s
  | .array items _ => "[" ++ String.intercalate "," (renderItems items) ++ "]"
  | .object members _ => "\x7b" ++ String.intercalate "," (renderMembers members) ++ "\x7d"
  | _ => "null"

def renderItems : List Json → List String
  | [] => []
  | j :: rest => render j :: renderItems rest

def renderMembers : List (Option String × Json) → List String
  | [] => []
  | (name, j) :: rest => (quotedText (name.getD "") ++ ":" ++ render j) :: renderMembers rest

end

end HistoryRelay.Json

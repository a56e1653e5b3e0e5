/-! Media types in content type headers, as far as it takes to tell JSON bodies. -/
namespace HistoryRelay.Http.ContentType

def isToken (c : Char) : Bool := c.isAlphanum || "!#$%&\x27*+-.^_\x60|~".toList.contains c

def isQuotable (c : Char) : Bool := 31 < c.toNat && c.toNat ≠ 127

/-- The text after a quoted value, whose first character is never its closing quote. -/
def afterQuoted? : List Char → Option (List Char)
  | [] => none
  | c :: rest =>
    if isQuotable c && rest.any (· = '"') then
      let inner := rest.takeWhile (· ≠ '"')
      if inner.all isQuotable then some (rest.drop (inner.length + 1)) else none
    else none

/-- Whether parameters, after a semicolon, are well formed; none at all are. Blanks stand
before a name and after a quoted value only. -/
def parametersOk : Nat → List Char → Bool
  | 0, _ => false
  | fuel + 1, cs =>
    let cs := cs.dropWhile (· = ' ')
    if cs.isEmpty then true
    else
      let name := cs.takeWhile isToken
      match name.isEmpty, cs.drop name.length with
      | false, '=' :: '"' :: rest =>
        match afterQuoted? rest with
        | none => false
        | some rest =>
          match rest.dropWhile (· = ' ') with
          | [] => true
          | ';' :: rest => parametersOk fuel rest
          | _ => false
      | false, '=' :: rest =>
        let value := rest.takeWhile isToken
        match rest.drop value.length with
        | [] => true
        | ';' :: rest => !value.isEmpty && parametersOk fuel rest
        | _ => false
      | _, _ => false

def splitSuffix (subtype : List Char) : List Char × List Char :=
  match subtype with
  | [] => ([], [])
  | first :: rest =>
    let suffix := (rest.reverse.takeWhile (· ≠ '+')).reverse
    if suffix.length < rest.length then
      (first :: rest.take (rest.length - suffix.length - 1), suffix)
    else (subtype, [])

/-- Whether a header value is `application/json` or `application/*+json`, in any case and
with any well-formed parameters. -/
def isJson (value : String) : Bool :=
  let cs := value.toLower.toList
  let top := cs.takeWhile isToken
  match cs.drop top.length with
  | '/' :: rest =>
    let subtype := rest.takeWhile isToken
    let (main, suffix) := splitSuffix subtype
    let parameters := match rest.drop subtype.length with
      | [] => true
      | ';' :: rest => !subtype.isEmpty && parametersOk (rest.length + 1) rest
      | _ => false
    parameters && top = "application".toList &&
      (main = "json".toList || suffix = "json".toList)
  | _ => false

end HistoryRelay.Http.ContentType

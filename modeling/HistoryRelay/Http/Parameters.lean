import HistoryRelay.Http.Message
import HistoryRelay.Text.FormQuery

/-! Query parameters. An endpoint knows some names; each of them may come once, any other
name is passed over. -/
namespace HistoryRelay.Http

abbrev Parameters := List (String × String)

namespace Parameters

def read (known : List String) (query : String) : Except RelayError Parameters :=
  let ps := (Text.FormQuery.pairs query).filter fun (name, _) => known.contains name
  if (ps.map (·.1)).eraseDups.length = ps.length then .ok ps else .error .badQuery

def get? (ps : Parameters) (name : String) : Option String := (ps.find? (·.1 = name)).map (·.2)

end Parameters

def requiredParameter (name : String) (value : Option String) : Except RelayError String :=
  match value.filter (· ≠ "") with
  | some v => .ok v
  | none => .error (.missingParameter name)

/-- A parameter that older clients may leave out. Where `strict` holds it is required, so
that clients which forget it are found out. -/
def optionalParameter (strict : Bool) (name : String) (value : Option String) :
    Except RelayError (Option String) :=
  if strict then some <$> requiredParameter name value else .ok (value.filter (· ≠ ""))

def isTrue (value : Option String) : Bool := value = some "true"

end HistoryRelay.Http

import HistoryRelay.Text.Blank

/-! The deployment flavour. Production keeps bookkeeping failures from clients and cleans
up in the background; test is strict and may be wiped. -/
namespace HistoryRelay

inductive Environment where
  | production | development | test
deriving DecidableEq

namespace Environment

def name : Environment → String
  | .production => "production"
  | .development => "development"
  | .test => "test"

def ofName? (s : String) : Option Environment :=
  if s = "production" then some .production
  else if s = "development" then some .development
  else if s = "test" then some .test
  else none

/-- The value of an environment variable: a name or its short form, in any case, blanks
around it. -/
def ofSetting? (s : String) : Option Environment :=
  let word := (Text.trim s).toLower
  if word = "prod" then some .production
  else if word = "dev" then some .development
  else ofName? word

end Environment

end HistoryRelay

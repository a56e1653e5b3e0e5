import HistoryRelay.Config
import HistoryRelay.Toml.Document

/-! The configuration file: a TOML document whose top table holds the settings; and the
configuration that the relay starts with. -/
namespace HistoryRelay.Config

/-- TOML has no null, so nothing is written as an empty array or table. -/
def isEmptyToml : Json → Bool
  | .array [] _ | .object [] _ => true
  | _ => false

def ofToml? (s : String) : Option Config := do
  match (shape isEmptyToml).decode (← Toml.ofText? s).toJson with
  | .ok c => some c
  | .error _ => none

structure Flags where
  listen : Option String := none
  database : Option String := none
  environment : Option String := none

/-- The settings after the command line, where an unknown flavour is a fault. -/
def withFlags? (c : Config) (flags : Flags) : Option Config :=
  let environment := match flags.environment with
    | some name => Environment.ofSetting? name
    | none => some c.environment
  environment.map fun environment => { c with
    environment
    listenAddress := flags.listen.getD c.listenAddress
    storagePath := flags.database.getD c.storagePath }

/-- What the relay starts with: the settings of the file if there is one, or else the defaults;
over them the environment variables, and over these the command line. -/
def load? (file : Option String) (lookup : String → Option String) (flags : Flags) :
    Option Config :=
  match file with
  | some toml => do ((← ofToml? toml).withVariables lookup).withFlags? flags
  | none => (withVariables {} lookup).withFlags? flags

end HistoryRelay.Config

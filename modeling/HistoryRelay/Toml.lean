import HistoryRelay.Json
import HistoryRelay.Word

/-! TOML documents as trees, and how they grow. A table is defined once: by its header, or
by dotted keys, or by being on the way to another one, and only the last kind may still get
a header of its own. -/
namespace HistoryRelay.Toml

inductive Value where
  | text (s : String)
  | integer (n : Word.Signed)
  | real (numeral : String)
  | bool (b : Bool)
  | time
  | array (items : List Value)
  | table (entries : List (String × Value))

mutual

inductive Node where
  | leaf (value : Value)
  | table (t : Table)
  /-- An array of tables, the latest one first. -/
  | tables (ts : List Table)

inductive Table where
  /-- `implicit` tables have no header and no braces of their own, `dotted` ones come from
  dotted keys. -/
  | mk (implicit dotted : Bool) (entries : List (String × Node))

end

namespace Table

def implicit : Table → Bool
  | mk i _ _ => i

def dotted : Table → Bool
  | mk _ d _ => d

def entries : Table → List (String × Node)
  | mk _ _ es => es

def empty : Table := mk false false []

def get? (t : Table) (key : String) : Option Node := (t.entries.find? (·.1 = key)).map (·.2)

def put (t : Table) (key : String) (node : Node) : Table :=
  let es := t.entries
  mk t.implicit t.dotted
    (if es.any (·.1 = key) then es.map fun e => if e.1 = key then (key, node) else e
      else es ++ [(key, node)])

def without (t : Table) (key : String) : Table :=
  mk t.implicit t.dotted (t.entries.filter (·.1 ≠ key))

/-- Changes the table at the end of a path. Missing tables on the way come into being; the
way goes through the latest table of an array, and not through values. Dotted keys cannot
enter a table that has a header or braces. -/
def descend (byDots : Bool) (change : Table → Option Table) : List String → Table → Option Table
  | [], t => change t
  | key :: rest, t =>
    match t.get? key with
    | none => do return t.put key (.table (← descend byDots change rest (mk true byDots [])))
    | some (.leaf _) => none
    | some (.tables []) => none
    | some (.tables (latest :: before)) => do
      return t.put key (.tables ((← descend byDots change rest latest) :: before))
    | some (.table child) =>
      if byDots && !child.implicit then none
      else do return t.put key (.table (← descend byDots change rest child))

/-- A key with its value: `path` holds the parts of a dotted key before the last one. -/
def assign (t : Table) (path : List String) (key : String) (value : Value) : Option Table :=
  descend true (fun child =>
    if child.dotted == path.isEmpty || (child.get? key).isSome then none
    else some (child.put key (.leaf value))) path t

end Table

mutual

def Node.value : Node → Value
  | .leaf v => v
  | .table t => .table (Table.values t)
  | .tables ts => .array (Table.valuesOfAll ts).reverse

def Table.values : Table → List (String × Value)
  | .mk _ _ entries => Node.valuesOfAll entries

def Table.valuesOfAll : List Table → List Value
  | [] => []
  | t :: rest => .table (Table.values t) :: Table.valuesOfAll rest

def Node.valuesOfAll : List (String × Node) → List (String × Value)
  | [] => []
  | (key, n) :: rest => (key, Node.value n) :: Node.valuesOfAll rest

end

/-- A document in the making: the tables that are complete, and the one under the latest
header with the path of that header. -/
structure Draft where
  root : Table := .empty
  current : Table := .empty
  path : List String := []
  inArray : Bool := false

namespace Draft

def close (d : Draft) : Option Table :=
  match d.path.getLast? with
  | none => some d.current
  | some key =>
    Table.descend false (fun parent =>
      if d.inArray then
        match parent.get? key with
        | none => some (parent.put key (.tables [d.current]))
        | some (.tables ts) => some (parent.put key (.tables (d.current :: ts)))
        | some _ => none
      else some (parent.put key (.table d.current))) d.path.dropLast d.root

/-- Starts the table of a header. What already lies under a table without a header of its
own stays in it. -/
def openTable (d : Draft) (path : List String) : Option Draft := do
  let root ← d.close
  let key ← path.getLast?
  let old := find path.dropLast root key
  let root ← Table.descend false (fun parent => some (parent.without key)) path.dropLast root
  match old with
  | none => some ⟨root, .empty, path, false⟩
  | some (.table (.mk true false entries)) => some ⟨root, .mk false false entries, path, false⟩
  | some _ => none
where
  find : List String → Table → String → Option Node
    | [], t, key => t.get? key
    | step :: rest, t, key =>
      match t.get? step with
      | some (.table child) => find rest child key
      | some (.tables (latest :: _)) => find rest latest key
      | _ => none

def openElement (d : Draft) (path : List String) : Option Draft := do
  let root ← d.close
  let key ← path.getLast?
  let root ← Table.descend false (fun parent =>
    match parent.get? key with
    | none | some (.tables _) => some parent
    | some _ => none) path.dropLast root
  some ⟨root, .empty, path, true⟩

end Draft

mutual

/-- The JSON value with the same content. Times have no text of their own there and become
a record that no setting takes. -/
def Value.toJson : Value → Json
  | .text s => Json.text s
  | .integer n => Json.int n.1
  | .real numeral => .number (.real numeral)
  | .bool b => .bool b
  | .time => Json.record [("time", .null), ("zone", .null)]
  | .array items => .array (Value.allToJson items) true
  | .table entries => .object (Value.entriesToJson entries) true

def Value.allToJson : List Value → List Json
  | [] => []
  | v :: rest => Value.toJson v :: Value.allToJson rest

def Value.entriesToJson : List (String × Value) → List (Option String × Json)
  | [] => []
  | (key, v) :: rest => (some key, Value.toJson v) :: Value.entriesToJson rest

end

end HistoryRelay.Toml

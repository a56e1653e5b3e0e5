import HistoryRelay.Toml.Scalar

/-! Reading whole TOML documents: values with their nesting, lines, headers. -/
namespace HistoryRelay.Toml

/-- How deep arrays and inline tables may nest, and how many parts a dotted key may have. -/
def depthLimit : Nat := 79

def skipComment (cs : List Char) : List Char :=
  match cs with
  | '#' :: rest => rest.dropWhile isPlain
  | _ => cs

def skipInArray : Nat → List Char → List Char
  | 0, cs => cs
  | fuel + 1, cs =>
    let cs := skipComment (skipWs cs)
    match newline? cs with
    | some rest => skipInArray fuel rest
    | none => cs

mutual

def value? : Nat → Nat → Read Value
  | 0, _, _ => none
  | fuel + 1, depth, cs =>
    match cs with
    | '[' :: rest => if depth = 0 then none else items? fuel (depth - 1) [] rest
    | '\x7b' :: rest =>
      if depth = 0 then none
      else match skipWs rest with
        | '\x7d' :: rest => some (.table [], rest)
        | rest => entries? fuel (depth - 1) .empty rest
    | '"' :: _ => (string? cs).map fun (s, rest) => (.text s, rest)
    | '\'' :: _ => (string? cs).map fun (s, rest) => (.text s, rest)
    | 't' :: 'r' :: 'u' :: 'e' :: rest => some (.bool true, rest)
    | 'f' :: 'a' :: 'l' :: 's' :: 'e' :: rest => some (.bool false, rest)
    | _ =>
      match time? cs with
      | some rest => some (.time, rest)
      | none => number? cs

def items? : Nat → Nat → List Value → Read Value
  | 0, _, _, _ => none
  | fuel + 1, depth, done, cs =>
    match skipInArray cs.length cs with
    | ']' :: rest => some (.array done.reverse, rest)
    | cs => do
      let (v, rest) ← value? fuel depth cs
      match skipInArray rest.length rest with
      | ',' :: rest => items? fuel depth (v :: done) rest
      | ']' :: rest => some (.array (v :: done).reverse, rest)
      | _ => none

/-- Entries of an inline table; no comma may come last. -/
def entries? : Nat → Nat → Table → Read Value
  | 0, _, _, _ => none
  | fuel + 1, depth, t, cs => do
    let (keys, rest) ← key? depthLimit cs
    let rest ← after '=' rest
    let (v, rest) ← value? fuel depth (skipWs rest)
    let t ← t.assign keys.dropLast (keys.getLastD "") v
    match skipWs rest with
    | ',' :: rest => entries? fuel depth t rest
    | '\x7d' :: rest => some (.table t.values, rest)
    | _ => none

end

def lineEnd? (cs : List Char) : Option (List Char) :=
  match skipComment (skipWs cs) with
  | [] => some []
  | cs => newline? cs

def line? (d : Draft) (cs : List Char) : Option (Draft × List Char) :=
  match skipWs cs with
  | '[' :: '[' :: rest => do
    let (path, rest) ← key? depthLimit rest
    let rest ← after ']' rest
    let rest ← after ']' rest
    return (← d.openElement path, ← lineEnd? rest)
  | '[' :: rest => do
    let (path, rest) ← key? depthLimit rest
    let rest ← after ']' rest
    return (← d.openTable path, ← lineEnd? rest)
  | cs =>
    match lineEnd? cs with
    | some rest => some (d, rest)
    | none => do
      let (keys, rest) ← key? depthLimit cs
      let rest ← after '=' rest
      let (v, rest) ← value? (rest.length + 1) depthLimit (skipWs rest)
      let current ← d.current.assign keys.dropLast (keys.getLastD "") v
      return ({ d with current }, ← lineEnd? rest)

def lines? : Nat → Draft → List Char → Option Table
  | 0, _, _ => none
  | fuel + 1, d, cs =>
    if cs.isEmpty then d.close
    else do
      let (d, rest) ← line? d cs
      lines? fuel d rest

/-- The top table of a document; a byte order mark may come first. -/
def ofText? (s : String) : Option Value :=
  let cs := match s.toList with
    | '\uFEFF' :: rest => rest
    | cs => cs
  (lines? (cs.length + 1) {} cs).map fun t => .table t.values

end HistoryRelay.Toml

import ErdSql.FileTree
import ErdSql.Overlay
import ErdSql.Yaml.Reader

/-!
# Reading overlays

An overlay is a YAML document with the overrides of each entity under the key `entities`. Everything
that does not have the right shape is reported, in the order of the document.
-/

namespace ErdSql.Overlay

/-- What has the wrong shape in a document. -/
inductive Fault where
  | mismatch (node : Yaml) (expected : String)
  | unknownField (line : Nat) (name owner : String)
  | repeatedKey (line : Nat) (name : String) (firstLine : Nat)

/-- The text of a scalar as it is shown in a message: at most ten bytes, or seven and dots. -/
def shownValue (s : String) : String :=
  let bytes := Text.bytes s
  " \x60" ++ (if bytes.length > 10 then Text.ofBytes (bytes.take 7) ++ "..." else s) ++ "\x60"

/-- The wording of a fault. -/
def Fault.message : Fault → String
  | mismatch node expected =>
    let shown := if node.tag == .seq || node.tag == .map then "" else shownValue node.text
    "line " ++ toString node.line ++ ": cannot unmarshal " ++ node.tag.name ++ shown ++ " into " ++
      expected
  | unknownField line name owner =>
    "line " ++ toString line ++ ": field " ++ name ++ " not found in type " ++ owner
  | repeatedKey line name firstLine =>
    "line " ++ toString line ++ ": mapping key " ++ Text.quoted name ++ " already defined at line " ++
      toString firstLine

/-- Why an overlay cannot be read. -/
inductive ReadError where
  | unreadable (e : PathError)
  | malformed
  | misshapen (faults : List Fault)

/-- The wording of an error about the overlay at a path. -/
def ReadError.message (path : String) (e : ReadError) : String :=
  "sidecar " ++ path ++ ": " ++ match e with
    | unreadable e => e.message
    | malformed => "yaml: malformed document"
    | misshapen faults => "yaml: unmarshal errors:\n  " ++ Text.join "\n  " (faults.map (·.message))

/-- A value that is made while faults are collected. There is none for a document that contradicts
itself. -/
abbrev Decoder (α : Type) : Type := StateT (List Fault) Option α

/-- Adds a fault. -/
def report (f : Fault) : Decoder Unit := modify (· ++ [f])

/-- Whether two keys are of one kind and have one spelling. -/
def sameKey : Yaml → Yaml → Bool
  | .scalar _ _ a, .scalar _ _ b => a == b
  | .seq _ _ _, .seq _ _ _ => true
  | .map _ _ _, .map _ _ _ => true
  | .reference _ a _, .reference _ b _ => a == b
  | _, _ => false

/-- The entries of a mapping. -/
abbrev Entries : Type := List (Yaml × Yaml)

/-- The keys that stand in a mapping twice. -/
def repeatedKeys : Entries → List Fault
  | [] => []
  | (key, _) :: rest =>
    ((rest.filter fun (other, _) => sameKey key other).map fun (other, _) =>
      .repeatedKey other.line other.text key.line) ++ repeatedKeys rest

/-- Reports a value that has not the expected shape. The repeated keys of a mapping are reported in its
place. -/
def refuse (node : Yaml) (expected : String) : Decoder Unit :=
  match node with
  | .map _ _ entries =>
    match repeatedKeys entries with
    | [] => report (.mismatch node expected)
    | faults => modify (· ++ faults)
  | _ => report (.mismatch node expected)

/-- Goes on only with a scalar whose tag admits its spelling. -/
def admitted (tag : Yaml.Tag) (value : String) : Decoder Unit :=
  if tag.admits value then pure () else failure

/-- A text: any scalar but null, which is no text. -/
def text? (node : Yaml) : Decoder (Option String) := do
  match node.target with
  | .scalar _ tag value =>
    admitted tag value
    return if tag == .null then none else some value
  | other => refuse other "string"; return none

/-- Whether a scalar of a kind is a text. -/
def isTextual : Yaml.Tag → Bool
  | .str => true
  | .merge => true
  | .other _ => true
  | _ => false

/-- A truth value by any of its names, none for null. -/
def flag? (node : Yaml) : Decoder (Option Bool) := do
  let node := node.target
  match node with
  | .scalar _ tag value =>
    admitted tag value
    if tag == .null then return none
    else if tag == .bool then return some (["true", "True", "TRUE"].contains value)
    else if isTextual tag && ["y", "Y", "yes", "Yes", "YES", "on", "On", "ON"].contains value then
      return some true
    else if isTextual tag && ["n", "N", "no", "No", "NO", "off", "Off", "OFF"].contains value then
      return some false
  | _ => pure ()
  refuse node "bool"
  return none

/-- A list of texts; items that are null are left out. -/
def texts (node : Yaml) : Decoder (List String) := do
  match node.target with
  | .seq _ _ items => return (← items.mapM text?).filterMap id
  | .scalar line tag value =>
    admitted tag value
    if tag != .null then refuse (.scalar line tag value) "[]string"
    return []
  | other => refuse other "[]string"; return []

/-! ### Mappings -/

/-- Whether a key asks for the entries of other mappings. -/
def isMergeKey : Yaml → Bool
  | .scalar _ tag value => tag == .merge && value == "<<"
  | _ => false

/-- The entries of a mapping, and behind them those that its merge key asks for. A mapping with
repeated keys asks for nothing. -/
def withMerged (own : Entries) (merged : Option (List Entries)) : Option (List Entries) :=
  if (repeatedKeys own).isEmpty then merged.map (own :: ·) else some [own]

mutual

/-- The layers of a mapping: its own entries and those of the mappings that it asks for. None if what
it asks for is no mapping and no sequence of mappings. -/
def layers? : Yaml → Option (List Entries)
  | .map _ _ entries => withMerged entries (mergedLayers? entries)
  | .reference _ _ value => layers? value
  | _ => none

/-- The layers that the merge key among the entries asks for. -/
def mergedLayers? : List (Yaml × Yaml) → Option (List Entries)
  | [] => some []
  | (key, value) :: rest => if isMergeKey key then sourceLayers? value else mergedLayers? rest

/-- The layers of the value of a merge key. -/
def sourceLayers? : Yaml → Option (List Entries)
  | .map _ _ entries => withMerged entries (mergedLayers? entries)
  | .reference _ _ value => layers? value
  | .seq _ _ items => itemLayers? items
  | .scalar _ _ _ => none

/-- The layers of several mappings. -/
def itemLayers? : List Yaml → Option (List Entries)
  | [] => some []
  | item :: items => do return (← layers? item) ++ (← itemLayers? items)

end

/-- The names among the keys of a mapping. -/
def keyNames (entries : Entries) : List String :=
  entries.filterMap fun (key, _) =>
    match key.target with
    | .scalar _ tag value => if isTextual tag then some value else none
    | _ => none

/-- Goes through one layer of a mapping. Names that are `taken` by a layer before it are passed over;
the names that it takes are added to them. -/
def layer {α : Type} (step : α → Yaml → String → Yaml → Decoder α) (taken : Option (List String))
    (value : α) (entries : Entries) : Decoder (α × List String) := do
  let start := taken.getD []
  match repeatedKeys entries with
  | [] =>
    let (value, names) ← (entries.filter fun (key, _) => !isMergeKey key).foldlM
      (fun (value, names) (key, item) => do
        match ← text? key with
        | none => return (value, names)
        | some name =>
          if names.contains name then return (value, names)
          return (← step value key name item, if taken.isSome then name :: names else names))
      (value, start)
    return (value, if taken.isSome then names else keyNames entries)
  | faults => modify (· ++ faults); return (value, start)

/-- Goes through the entries of a mapping, none for null. -/
def mapping {α : Type} (expected : String) (start : α)
    (step : α → Yaml → String → Yaml → Decoder α) (node : Yaml) : Decoder α := do
  match node.target with
  | .map line tag entries =>
    match layers? (.map line tag entries) with
    | none => failure
    | some [] => return start
    | some (own :: merged) =>
      let first ← layer step none start own
      return (← merged.foldlM (fun (value, names) entries => layer step (some names) value entries)
        first).1
  | .scalar line tag value =>
    admitted tag value
    if tag != .null then refuse (.scalar line tag value) expected
    return start
  | other => refuse other expected; return start

/-- Goes through the entries of a mapping with fixed fields. The step gives none for a field that it
does not know. -/
def fields {α : Type} (owner : String) (start : α) (step : α → String → Yaml → Option (Decoder α)) :
    Yaml → Decoder α :=
  mapping owner start fun value key name item =>
    match step value name item with
    | some next => next
    | none => do report (.unknownField key.line name owner); return value

/-- A partitioning. -/
def Partition.ofYaml : Yaml → Decoder Partition :=
  fields "sidecar.Partition" ⟨"", []⟩ fun p name item =>
    if name == "strategy" then
      some do return { p with strategy := (← text? item).getD "" }
    else if name == "columns" then
      some do return { p with columns := ← texts item }
    else none

/-- The script to run after an entity. -/
def postOfYaml : Yaml → Decoder String :=
  fields "sidecar.Migrations" "" fun post name item =>
    if name == "post" then some do return (← text? item).getD post else none

/-- The overrides of one entity. -/
def Override.ofYaml : Yaml → Decoder Override :=
  fields "sidecar.Entity" {} fun o name item =>
    if name == "rls" then
      some do return { o with rls := ← flag? item }
    else if name == "partitions" then
      some do
        let partition ← Partition.ofYaml item
        return { o with partitions := if item.tag == .null then none else some partition }
    else if name == "migrations" then
      some do return { o with post := ← postOfYaml item }
    else none

/-- The overrides of all entities. -/
def overridesOfYaml : Yaml → Decoder (List (String × Override)) :=
  mapping "map[string]sidecar.Entity" [] fun overrides _ name item => do
    return overrides ++ [(name, ← Override.ofYaml item)]

/-- The content of a document. -/
def contentOfYaml : Yaml → Decoder (List (String × Override)) :=
  fields "sidecar.Overlay" [] fun _ name item =>
    if name == "entities" then some (overridesOfYaml item) else none

/-- The lines of the keys under `entities`. -/
def keyLines : Yaml → List (String × Nat)
  | .map _ _ entries => entries.flatMap fun (key, item) =>
    match item with
    | .map _ _ below =>
      if key.text == "entities" then (below.map fun (k, _) => (k.text, k.line)).reverse else []
    | _ => []
  | _ => []

/-- Reads the overlay that a text spells. -/
def read (path text : String) : Except ReadError Overlay :=
  match Yaml.read? text with
  | none => .error .malformed
  | some none => .ok ⟨path, [], []⟩
  | some (some node) =>
    match (contentOfYaml node).run [] with
    | none => .error .malformed
    | some (entities, []) => .ok ⟨path, entities, keyLines node⟩
    | some (_, faults) => .error (.misshapen faults)

/-- Reads the overlay that bytes spell, which must be UTF-8. -/
def readBytes (path : String) (bytes : List UInt8) : Except ReadError Overlay :=
  match Text.decode? bytes with
  | some cs => read path (String.ofList cs)
  | none => .error .malformed

/-- Reads the overlay at a path. -/
def load (tree : FileTree) (workingDir : Path) (path : String) : Except ReadError Overlay :=
  match tree.read workingDir path with
  | .error e => .error (.unreadable e)
  | .ok bytes => readBytes path bytes

end ErdSql.Overlay

import Knoa.Library.JsonRead
import Mathlib.Algebra.GroupWithZero.Nat

/-!
# The tool inventory

Discovery of tools, what of them a model call sees, and the deferred tools that a session has
activated.
-/
namespace Knoa.Runtime

/-- A normalized tool definition. -/
structure Tool where
  name : String
  description : String
  inputSchema : Json
  outputSchema : Option Json := none

/-- The compact signature that a provider call carries. -/
structure ToolSignature where
  name : String
  description : String
  inputSchema : Json

def Tool.document (tool : Tool) : Json :=
  .obj ([("name", .str tool.name), ("description", .str tool.description),
    ("inputSchema", tool.inputSchema)] ++
      match tool.outputSchema with
      | some schema => [("outputSchema", schema)]
      | none => [])

def ToolSignature.document (signature : ToolSignature) : Json :=
  .obj [("name", .str signature.name), ("description", .str signature.description),
    ("inputSchema", signature.inputSchema)]

def serializedSize (tool : Json) : Nat := (Json.dumps (Json.compact false) tool.sorted).length

def modelSchemaKeys : List String :=
  ["type", "properties", "required", "enum", "const", "items", "prefixItems", "oneOf", "anyOf",
    "allOf", "$ref", "$defs"]

def lookup (key : String) : Json → Option Json
  | .obj fields => List.lookup key fields
  | _ => none

def setDefault (key : String) (value : Json) (fields : List (String × Json)) :
    List (String × Json) :=
  if (fields.lookup key).isSome then fields else fields ++ [(key, value)]

def isType (name : String) (fields : List (String × Json)) : Bool :=
  match fields.lookup "type" with
  | some (.str found) => found == name
  | _ => false

mutual
def projectSchema : Json → Json
  | .arr items => .arr (projectItems items)
  | .obj fields =>
    let projected := projectFields fields
    .obj (if isType "object" projected then setDefault "properties" (.obj []) projected
      else projected)
  | other => other
def projectItems : List Json → List Json
  | [] => []
  | item :: items => projectSchema item :: projectItems items
def projectFields : List (String × Json) → List (String × Json)
  | [] => []
  | (key, value) :: fields =>
    if key ∈ modelSchemaKeys then
      (key, if key ∈ ["properties", "$defs"] then projectNamed value else projectSchema value) ::
        projectFields fields
    else projectFields fields
/-- The schemas under `properties` and `$defs` keep their own names. -/
def projectNamed : Json → Json
  | .obj fields => .obj (projectEach fields)
  | .arr items => .arr (projectItems items)
  | other => other
def projectEach : List (String × Json) → List (String × Json)
  | [] => []
  | (name, schema) :: fields => (name, projectSchema schema) :: projectEach fields
end

/-- Uncommon complex parameters stay behind `tool_help`. -/
def applyToolSpecificSkim (name : String) (schema : Json) : Json :=
  match schema, lookup "properties" schema with
  | .obj fields, some (.obj properties) =>
    if name = "task_control" then
      let core := ["action", "task_id", "execution_id"].filterMap fun key =>
        (properties.lookup key).map fun value => (key, value)
      .obj (Json.setField "properties" (.obj core) fields)
    else if name ≠ "create_task" then schema
    else
      match properties.lookup "launch" with
      | some (.obj launch) =>
        match launch.lookup "properties" with
        | some (.obj launchProperties) =>
          let kind := match launchProperties.lookup "kind" with
            | some (.obj kind) => [("kind", Json.obj kind)]
            | _ => []
          let launch := Json.setField "required" (.arr [.str "kind"])
            (Json.setField "properties" (.obj kind) launch)
          .obj (Json.setField "properties" (.obj (Json.setField "launch" (.obj launch) properties)) fields)
        | _ => schema
      | _ => schema
  | _, _ => schema

def modelSignature (tool : Tool) : ToolSignature where
  name := tool.name
  description := String.ofList (tool.description.toList.take 240)
  inputSchema := applyToolSpecificSkim tool.name (projectSchema tool.inputSchema)

inductive McpMode
  | deferred
  | static
  | auto
  deriving DecidableEq, Repr

structure Settings where
  schemaCharBudget : Nat := 24000
  mcpMode : McpMode := .deferred
  deferredPredicate : String → Bool := fun name => name.startsWith "mcp_"
  casefold : String → String
  toolTagsFor : String → List String
  /-- `str` of a value that is no string. -/
  str : Json → String
  budget_at_least : 1000 ≤ schemaCharBudget

/-- What the selector answers on one call; it depends on the model that has been loaded. -/
structure SemanticSelection where
  names : List String := []
  mode : String := "unavailable"

abbrev Selector := String → List (String × String) → SemanticSelection

def isSpace (c : Char) : Bool :=
  c.toNat ∈ [0x9, 0xa, 0xb, 0xc, 0xd, 0x1c, 0x1d, 0x1e, 0x1f, 0x20, 0x85, 0xa0, 0x1680, 0x2000,
    0x2001, 0x2002, 0x2003, 0x2004, 0x2005, 0x2006, 0x2007, 0x2008, 0x2009, 0x200a, 0x2028, 0x2029,
    0x202f, 0x205f, 0x3000]

def strip (s : String) : String :=
  String.ofList ((s.toList.dropWhile isSpace).reverse.dropWhile isSpace).reverse

structure ToolInventorySnapshot where
  tools : List Tool
  schemaChars : Nat

structure ToolProjection where
  tools : List ToolSignature
  mode : String
  matchedNames : List String
  schemaHits : Nat

section
variable (settings : Settings)

def truthy : Json → Bool
  | .null => false
  | .bool b => b
  | .int n => n != 0
  | .float text => text != "0.0".toList && text != "-0.0".toList
  | .str s => s != ""
  | .arr items => !items.isEmpty
  | .obj fields => !fields.isEmpty

/-- `str(tool.get(key) or "")` -/
def textOf (key : String) (tool : Json) : String :=
  match lookup key tool with
  | some (.str s) => s
  | some value => if truthy value then settings.str value else ""
  | none => ""

/-- The copy of a schema through its text puts the keys in order. -/
def normalize (tool : Json) : Except String Tool :=
  match tool with
  | .obj _ =>
    let name := strip (textOf settings "name" tool)
    match lookup "inputSchema" tool with
    | some (.obj schema) =>
      if name = "" then .error "MCP Tool definition requires name and inputSchema"
      else .ok {
        name, description := textOf settings "description" tool
        inputSchema := (Json.obj schema).sorted
        outputSchema := match lookup "outputSchema" tool with
          | some (.obj output) => some (Json.obj output).sorted
          | _ => none }
    | _ => .error "MCP Tool definition requires name and inputSchema"
  | _ => .error "MCP Tool definition must be an object"

/-- One definition per name, in the order of discovery. -/
def discover : List Json → List Tool → Except String (List Tool)
  | [], found => .ok found
  | raw :: listed, found => do
    let tool ← normalize settings raw
    if tool.name ∈ found.map Tool.name then discover listed found
    else discover listed (found ++ [tool])

def snapshotOf (listed : List Json) : Except String ToolInventorySnapshot := do
  let tools ← discover settings listed []
  return { tools, schemaChars := (tools.map fun tool => serializedSize tool.document).sum }

def ToolSignature.size (signature : ToolSignature) : Nat := serializedSize signature.document

def totalSize (signatures : List ToolSignature) : Nat := (signatures.map ToolSignature.size).sum

/-- A later definition of a name hides an earlier one. -/
def ToolInventorySnapshot.byName (snapshot : ToolInventorySnapshot) (name : String) : Option Tool :=
  snapshot.tools.reverse.find? fun tool => tool.name == name

def ToolInventorySnapshot.stable (snapshot : ToolInventorySnapshot) : List ToolSignature :=
  (snapshot.tools.filter fun tool => !settings.deferredPredicate tool.name).map modelSignature

def ToolInventorySnapshot.deferred (snapshot : ToolInventorySnapshot) : List Tool :=
  snapshot.tools.filter fun tool => settings.deferredPredicate tool.name

def shouldUseStatic (snapshot : ToolInventorySnapshot) : Except String Bool :=
  if settings.mcpMode = .deferred then .ok false
  else
    let deferred := (snapshot.deferred settings).map modelSignature
    let size := totalSize (snapshot.stable settings ++ deferred)
    if settings.mcpMode = .static ∧ settings.schemaCharBudget < size then
      .error "Static MCP tool signatures exceed the configured budget"
    else .ok (!deferred.isEmpty && decide (size ≤ settings.schemaCharBudget))

/-- A letter of a pattern that ignores case; the long s folds to an s. -/
def sameLetter (letter c : Char) : Bool := c.toLower == letter || letter == 's' && c.toNat == 0x17f

def isServerChar (c : Char) : Bool :=
  c.isAlphanum || c == '_' || c == '.' || c == '-' || c.toNat ∈ [0x130, 0x131, 0x17f, 0x212a]

def dropPattern : List Char → List Char → Option (List Char)
  | [], cs => some cs
  | letter :: pattern, c :: cs => if sameLetter letter c then dropPattern pattern cs else none
  | _ :: _, [] => none

/-- `MCP server:` and a name alone on a line. -/
def matchServer (line : List Char) : Option String := do
  let rest ← dropPattern "mcp server:".toList line
  let rest := rest.dropWhile isSpace
  let server := rest.takeWhile isServerChar
  let after := rest.dropWhile isServerChar
  if server ≠ [] ∧ ((after.takeWhile isSpace).contains '\n' = true ∨ after.dropWhile isSpace = [])
  then return String.ofList server
  else none

def lineStarts : List Char → List (List Char)
  | [] => []
  | c :: cs => if c = '\n' then cs :: lineStarts cs else lineStarts cs

def sourceNamespaceMatches (query : String) (deferred : List Tool) : List String :=
  match (query.toList :: lineStarts query.toList).findSome? matchServer with
  | none => []
  | some server =>
    let start := "mcp__" ++ settings.casefold server ++ "__"
    (deferred.filter fun tool =>
      start.toList.isPrefixOf (settings.casefold tool.name).toList).map Tool.name

inductive CharKind
  | word
  | cjk
  | other
  deriving DecidableEq

def charKind (c : Char) : CharKind :=
  if c.isAlphanum then .word
  else if 0x4e00 ≤ c.toNat ∧ c.toNat ≤ 0x9fff then .cjk
  else .other

/-- The runs of letters and digits and the runs of ideographs, each of two characters at least. -/
def tokens (value : String) : List String :=
  let runs := (settings.casefold value).toList.splitBy fun a b => charKind a == charKind b
  let kept := runs.filter fun run => 2 ≤ run.length ∧ (run.head?.map charKind) ≠ some .other
  (kept.map String.ofList).dedup

def rankedBefore (a b : Nat × String) : Prop := b.1 < a.1 ∨ a.1 = b.1 ∧ a.2 ≤ b.2

instance : DecidableRel rankedBefore := fun a b =>
  inferInstanceAs (Decidable (b.1 < a.1 ∨ a.1 = b.1 ∧ a.2 ≤ b.2))

def lexicalMatches (query : String) (deferred : List Tool) : List String :=
  let wanted := tokens settings query
  let ranked := deferred.filterMap fun tool =>
    let tags := " ".intercalate (settings.toolTagsFor tool.name)
    let searchable := tokens settings (tool.name ++ " " ++ tool.description ++ " " ++ tags)
    let score := (wanted.filter (· ∈ searchable)).length
    if score = 0 then none else some (score, tool.name)
  ((ranked.insertionSort rankedBefore).take 6).map Prod.snd

/-- What a query recalls: by source, by words and by meaning. -/
structure Recall where
  source : List String
  lexical : List String
  semantic : SemanticSelection

def Recall.names (recallTools : Recall) : List String :=
  recallTools.source ++ recallTools.lexical ++ recallTools.semantic.names

def recallTools (snapshot : ToolInventorySnapshot) (query : String) (select : Selector) : Recall :=
  let deferred := snapshot.deferred settings
  let source := sourceNamespaceMatches settings query deferred
  { source
    lexical := if source = [] then lexicalMatches settings query deferred else []
    semantic :=
      if deferred ≠ [] ∧ strip query ≠ "" ∧ source = [] then
        select query (deferred.map fun tool => (tool.name, tool.description))
      else {} }

def Recall.mode (recallTools : Recall) : String :=
  let modes :=
    (if recallTools.source = [] then [] else ["source"]) ++
      (if recallTools.lexical = [] then [] else ["lexical"]) ++
        if recallTools.semantic.names = [] then [] else [recallTools.semantic.mode]
  "+".intercalate (if modes = [] then ["static"] else modes)

def schemaHits (tools : List ToolSignature) : Nat :=
  (tools.filter fun tool => settings.deferredPredicate tool.name).length

structure ToolInventory where
  cache : String → String → Option ToolInventorySnapshot := fun _ _ => none
  activeDeferred : String → Option (List String) := fun _ => none
  staticSessions : String → Option Bool := fun _ => none

namespace ToolInventory
variable (inventory : ToolInventory) (ref : String)

def active : List String := (inventory.activeDeferred ref).getD []

def isStatic : Bool := (inventory.staticSessions ref).getD false

def setActive (names : List String) : ToolInventory :=
  { inventory with activeDeferred := Function.update inventory.activeDeferred ref (some names) }

def setStatic (flag : Bool) : ToolInventory :=
  { inventory with staticSessions := Function.update inventory.staticSessions ref (some flag) }

def remember (digest : String) (snapshot : ToolInventorySnapshot) : ToolInventory :=
  { inventory with
    cache := Function.update inventory.cache ref
      (Function.update (inventory.cache ref) digest (some snapshot)) }

/-- The snapshot is in the cache before it is decided whether the session is static. -/
def load (digest : String) (listed : List Json) :
    ToolInventory × Except String ToolInventorySnapshot :=
  match inventory.cache ref digest with
  | some cached => (inventory, .ok cached)
  | none =>
    match snapshotOf settings listed with
    | .error refusal => (inventory, .error refusal)
    | .ok snapshot =>
      let inventory := inventory.remember ref digest snapshot
      match shouldUseStatic settings snapshot with
      | .error refusal => (inventory, .error refusal)
      | .ok flag =>
        let inventory := inventory.setStatic ref flag
        match inventory.activeDeferred ref with
        | none => (inventory, .ok snapshot)
        | some active =>
          (inventory.setActive ref
            (active.filter fun name => name ∈ snapshot.tools.map Tool.name), .ok snapshot)

def overBudget : String := "Selected model tool signatures exceed the configured budget"

def projectDeferred (snapshot : ToolInventorySnapshot) : Except String (List ToolSignature) :=
  let named := ((inventory.active ref).filterMap snapshot.byName).map modelSignature
  let projected := snapshot.stable settings ++ named
  if settings.schemaCharBudget < totalSize projected then .error overBudget else .ok projected

def project (snapshot : ToolInventorySnapshot) :
    ToolInventory × Except String (List ToolSignature) :=
  if inventory.isStatic ref = true then
    let projected := snapshot.stable settings ++ (snapshot.deferred settings).map modelSignature
    if settings.schemaCharBudget < totalSize projected then
      let inventory := inventory.setStatic ref false
      (inventory, inventory.projectDeferred settings ref snapshot)
    else (inventory, .ok projected)
  else (inventory, inventory.projectDeferred settings ref snapshot)

def isSelectable (snapshot : ToolInventorySnapshot) (name : String) : Bool :=
  decide (name ∈ snapshot.tools.map Tool.name) && settings.deferredPredicate name

/-- Names join in the order of the catalogue, and none of them ever leaves. -/
def activate (snapshot : ToolInventorySnapshot) (names : List String) :
    ToolInventory × List String :=
  let selected := (names.filter (isSelectable settings snapshot)).dedup
  if selected = [] then (inventory, [])
  else
    let fresh := (snapshot.tools.map Tool.name).filter fun name =>
      decide (name ∈ selected) && decide (name ∉ inventory.active ref)
    (inventory.setActive ref (inventory.active ref ++ fresh), selected.insertionSort (· ≤ ·))

def activeManifest : List String := inventory.active ref

/-- A name joins the manifest unless it is stale, not deferred or there already. -/
def rejoin (snapshot : ToolInventorySnapshot) : List String → List String → List String
  | active, [] => active
  | active, name :: names =>
    if isSelectable settings snapshot name = true ∧ name ∉ active then
      rejoin snapshot (active ++ [name]) names
    else rejoin snapshot active names

def restoreManifest (snapshot : ToolInventorySnapshot) (names : List String) : ToolInventory :=
  inventory.setActive ref (rejoin settings snapshot (inventory.active ref) names)

def invalidateSession : ToolInventory where
  cache := Function.update inventory.cache ref fun _ => none
  activeDeferred := Function.update inventory.activeDeferred ref none
  staticSessions := Function.update inventory.staticSessions ref none

/-- The names stay active even where the projection is refused. -/
def projectForTurn (snapshot : ToolInventorySnapshot) (query : String) (select : Selector) :
    ToolInventory × Except String ToolProjection :=
  if inventory.isStatic ref = true then
    let (inventory, tools) := inventory.project settings ref snapshot
    (inventory, tools.map fun tools =>
      { tools, mode := "static", matchedNames := [], schemaHits := schemaHits settings tools })
  else
    let recalled := recallTools settings snapshot query select
    let (inventory, _) := inventory.activate settings ref snapshot recalled.names
    let (inventory, tools) := inventory.project settings ref snapshot
    (inventory, tools.map fun tools =>
      { tools
        mode := recalled.mode
        matchedNames := recalled.names.dedup.insertionSort (· ≤ ·)
        schemaHits := schemaHits settings tools })

end ToolInventory
end

end Knoa.Runtime

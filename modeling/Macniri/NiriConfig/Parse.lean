import Macniri.NiriConfig.Binds
import Macniri.Layout.Config

/-! Reading a config: the nodes of a file in order, with the included files in their place. -/
namespace Macniri.NiriConfig

open Layout (eqIgnoreAsciiCase)

def RECURSION_LIMIT : ℕ := 10

inductive DecodeError
  | duplicateNode (name : String)
  | unexpectedNode (name : String)
  | recursionLimit
  | invalidFileName
  | recursiveInclude
  | failedToParse
  | failedToRead
  | duplicateKeybind
  | duplicateNamedWorkspace (name : String)
  | workspaceNameNotString
  /-- An error within a section. -/
  | inSection (message : String)
  deriving DecidableEq

inductive Literal
  | string (s : String)
  | other
  deriving DecidableEq

/-- A node of a file. Its parts that end up elsewhere in the config are known by how they decode: the errors
they emit, and the error they fail with. -/
inductive Node (α : Type)
  | binds (errors : List DecodeError) (children : List (Except DecodeError (Bind α)))
  | workspace (name : Literal) (errors : List DecodeError) (fails : Option DecodeError)
  /-- `surplus` are the errors for more than the one argument. -/
  | includeFile (path : Except DecodeError String) (surplus : List DecodeError)
  | otherSection (name : String) (errors : List DecodeError) (fails : Option DecodeError)
  | unknown (name : String)

variable {α π : Type} [DecidableEq π]

def Node.name : Node α → String
  | binds .. => "binds"
  | workspace .. => "workspace"
  | includeFile .. => "include"
  | otherSection name _ _ => name
  | unknown name => name

/-- The nodes that may stand several times in a file. -/
def multipart : List String :=
  ["output", "spawn-at-startup", "spawn-sh-at-startup", "window-rule", "layer-rule", "workspace",
    "include"]

/-- The files, and how paths are put together. -/
structure FileSystem (α π : Type) where
  join : π → String → π
  parent : π → π
  hasFileName : π → Bool
  /-- `none` if the file cannot be read, `some none` if it is not a document. -/
  read : π → Option (Option (List (Node α)))

/-- What all files of a config write to. -/
structure Config (α π : Type) where
  binds : List (Bind α)
  workspaces : List String
  includes : List π
  includeErrors : List (List DecodeError)

/-- The state of reading one file. -/
structure Context (α π : Type) where
  config : Config α π
  errors : List DecodeError
  workspaceNameSet : List String
  seen : List String

namespace Context

def emitError (ctx : Context α π) (error : DecodeError) : Context α π :=
  { ctx with errors := ctx.errors ++ [error] }

def emitErrors (ctx : Context α π) (errors : List DecodeError) : Context α π :=
  { ctx with errors := ctx.errors ++ errors }

end Context

/-- `Binds::decode_node`: the errors and the binds of the section. -/
def decodeBinds : List (Except DecodeError (Bind α)) → List Key → List DecodeError × List (Bind α)
  | [], _ => ([], [])
  | .error e :: children, seenKeys =>
    let (errors, binds) := decodeBinds children seenKeys
    (e :: errors, binds)
  | .ok bind :: children, seenKeys =>
    if bind.key ∈ seenKeys then
      let (errors, binds) := decodeBinds children seenKeys
      (.duplicateKeybind :: errors, binds)
    else
      let (errors, binds) := decodeBinds children (bind.key :: seenKeys)
      (errors, bind :: binds)

/-- `WorkspaceName::raw_decode`. -/
def decodeWorkspaceName (ctx : Context α π) : Literal → Context α π × String
  | .string s =>
    if ctx.workspaceNameSet.any fun name => eqIgnoreAsciiCase name s then
      (ctx.emitError (.duplicateNamedWorkspace s), "")
    else ({ ctx with workspaceNameSet := ctx.workspaceNameSet ++ [s] }, s)
  | .other => (ctx.emitError .workspaceNameNotString, "")

/-- The workspace is added unless the rest of its node fails. -/
def pushWorkspace (decoded : Context α π × String) (errors : List DecodeError)
    (fails : Option DecodeError) : Context α π × Option DecodeError :=
  let ctx := decoded.1.emitErrors errors
  match fails with
  | some e => (ctx, some e)
  | none =>
    ({ ctx with
      config := { ctx.config with workspaces := ctx.config.workspaces ++ [decoded.2] } }, none)

section Decode

variable (fs : FileSystem α π)
  /- How an included file is read: the config so far, the path, and its document. -/
  (parseInclude : Option (Config α π → π → Option (List (Node α)) → Config α π × List DecodeError))
  (base : π) (includeStack : List π)

/-- An include; there is nothing to read it with at the recursion limit. -/
def decodeInclude (ctx : Context α π) (arg : String) : Context α π :=
  let path := fs.join base arg
  match parseInclude with
  | none => ctx.emitError .recursionLimit
  | some parseInclude =>
    if !fs.hasFileName path then ctx.emitError .invalidFileName
    else if path ∈ includeStack then ctx.emitError .recursiveInclude
    else
      let config := { ctx.config with includes := ctx.config.includes ++ [path] }
      match fs.read path with
      | none => { ctx with config }.emitError .failedToRead
      | some document =>
        let (config, errors) := parseInclude config path document
        if errors = [] then { ctx with config }
        else
          { ctx with
            config := { config with includeErrors := config.includeErrors ++ [errors] }
          }.emitError .failedToParse

/-- One node that may stand here; the error is the one that ends the file. -/
def decodeFresh (ctx : Context α π) : Node α → Context α π × Option DecodeError
  | .binds errors children =>
    let (errors', binds) := decodeBinds children []
    ({ ctx.emitErrors (errors ++ errors') with
      config := { ctx.config with binds := mergeBinds ctx.config.binds binds } }, none)
  | .workspace name errors fails => pushWorkspace (decodeWorkspaceName ctx name) errors fails
  | .includeFile (.error e) _ => (ctx, some e)
  | .includeFile (.ok arg) surplus =>
    (decodeInclude fs parseInclude base includeStack (ctx.emitErrors surplus) arg, none)
  | .otherSection _ errors fails => (ctx.emitErrors errors, fails)
  | .unknown name => (ctx.emitError (.unexpectedNode name), none)

/-- Within one file, sections are not split, except those that add new values. -/
def decodeNode (ctx : Context α π) (node : Node α) : Context α π × Option DecodeError :=
  if node.name ∈ multipart then decodeFresh fs parseInclude base includeStack ctx node
  else if node.name ∈ ctx.seen then (ctx.emitError (.duplicateNode node.name), none)
  else
    decodeFresh fs parseInclude base includeStack { ctx with seen := ctx.seen ++ [node.name] } node

/-- `decode_children`. -/
def decodeChildren (ctx : Context α π) : List (Node α) → Context α π × Option DecodeError
  | [] => (ctx, none)
  | node :: nodes =>
    match decodeNode fs parseInclude base includeStack ctx node with
    | (ctx, some e) => (ctx, some e)
    | (ctx, none) => decodeChildren ctx nodes

end Decode

/-- `knuffel::parse_with_context` in a fresh context; `depth` includes may still be nested. -/
def parseWithContext (fs : FileSystem α π) : (depth : ℕ) → (base : π) → (includeStack : List π) →
    Config α π → Option (List (Node α)) → Config α π × List DecodeError
  | _, _, _, config, none => (config, [.inSection "syntax error"])
  | 0, base, includeStack, config, some nodes =>
    let (ctx, fails) := decodeChildren fs none base includeStack ⟨config, [], [], []⟩ nodes
    (ctx.config, ctx.errors ++ fails.toList)
  | depth + 1, base, includeStack, config, some nodes =>
    let parseInclude config path document :=
      parseWithContext fs depth (fs.parent path) (path :: includeStack) config document
    let (ctx, fails) :=
      decodeChildren fs (some parseInclude) base includeStack ⟨config, [], [], []⟩ nodes
    (ctx.config, ctx.errors ++ fails.toList)

/-- `Config::parse`: the config, or the errors of the main file and of the included ones. -/
def parse (fs : FileSystem α π) (path : π) (document : Option (List (Node α))) :
    Except (List DecodeError × List (List DecodeError)) (Config α π) :=
  let (config, errors) := parseWithContext fs (RECURSION_LIMIT - 1) (fs.parent path) [path]
    ⟨[], [], [], []⟩ document
  if errors = [] then .ok config else .error (errors, config.includeErrors)

/-! What is written in the files, with the included ones in their place. -/

/-- The file an include stands for. -/
def includedFile (fs : FileSystem α π) (base : π) (arg : String) : Option (π × List (Node α)) :=
  (fs.read (fs.join base arg)).join.map fun nodes => (fs.parent (fs.join base arg), nodes)

/-- The binds sections of a node, given those of the included files. -/
def Node.sections (S : String → List (List (Bind α))) : Node α → List (List (Bind α))
  | .binds _ children => [children.filterMap Except.toOption]
  | .includeFile (.ok arg) _ => S arg
  | _ => []

/-- The binds sections, in the order in which they are read. -/
def bindsSections (fs : FileSystem α π) : ℕ → π → List (Node α) → List (List (Bind α))
  | 0, _, nodes => nodes.flatMap (Node.sections fun _ => [])
  | depth + 1, base, nodes => nodes.flatMap (Node.sections fun arg =>
    match includedFile fs base arg with
    | some (base, nodes) => bindsSections fs depth base nodes
    | none => [])

def Node.workspaceName : Node α → Option String
  | .workspace (.string s) _ _ => some s
  | _ => none

/-- The names of a node that are read from other files. -/
def Node.otherNames (N : String → List (List String)) : Node α → List (List String)
  | .includeFile (.ok arg) _ => N arg
  | _ => []

/-- The names of the workspaces, one list for each time a file is read. -/
def workspaceNames (fs : FileSystem α π) : ℕ → π → List (Node α) → List (List String)
  | 0, _, nodes => [nodes.filterMap Node.workspaceName]
  | depth + 1, base, nodes =>
    nodes.filterMap Node.workspaceName :: nodes.flatMap (Node.otherNames fun arg =>
      match includedFile fs base arg with
      | some (base, nodes) => workspaceNames fs depth base nodes
      | none => [])

end Macniri.NiriConfig

import Macniri.NiriConfig.Parse

/-! Config files that include each other: the paths, where they lead, and what is read in which order. -/
namespace Macniri.ConfigFiles

open NiriConfig (DecodeError RECURSION_LIMIT multipart)

inductive Component
  | curDir
  | parentDir
  /-- `unicode` is whether the name can be shown as text. -/
  | normal (name : String) (unicode : Bool)
  deriving DecidableEq, Repr

/-- A path by its components, as the standard library compares paths. -/
structure Path where
  absolute : Bool
  components : List Component
  deriving DecidableEq, Repr

/-- A place in the file system: the names up to the root directory. -/
abbrev Location := List (String × Bool)

namespace Path

/-- The empty path. -/
def empty : Path := ⟨false, []⟩

def join (base path : Path) : Path :=
  if path.absolute then path
  else if base = empty then path
  else { base with components := base.components ++ path.components.filter (· ≠ .curDir) }

/-- `parent().unwrap_or_default()`. -/
def parent (path : Path) : Path :=
  if path.components = [] then empty else { path with components := path.components.dropLast }

/-- Whether the last component is a name, and whether it is text. -/
def fileName (path : Path) : Option Bool :=
  match path.components.getLast? with
  | some (.normal _ unicode) => some unicode
  | _ => none

end Path

def Component.enter (dir : Location) : Component → Location
  | .curDir => dir
  | .parentDir => dir.tail
  | .normal name unicode => (name, unicode) :: dir

/-- Where a path leads; there are no symbolic links. -/
def Path.location (path : Path) (workingDirectory : Location) : Location :=
  path.components.foldl Component.enter (if path.absolute then [] else workingDirectory)

/-- A node of a file; `body` is what the decoder of the section reads. -/
inductive Node (σ : Type)
  /-- `surplus` are the errors for more than the one argument. -/
  | includeFile (path : Except DecodeError Path) (surplus : List DecodeError)
  | configSection (name : String) (body : σ)
  | unknown (name : String)

def Node.name {σ : Type} : Node σ → String
  | includeFile .. => "include"
  | configSection name _ => name
  | unknown name => name

/-- What a text parses to; `none` if it is not a document. -/
abbrev Document (σ : Type) := Option (List (Node σ))

structure FileSystem (σ : Type) where
  workingDirectory : Location
  files : Location → Option (Document σ)
  /-- Whether a path can be opened as it is written: its directories exist, and may be entered. -/
  opens : Path → Bool

/-- `fs::read_to_string`. -/
def FileSystem.read {σ : Type} (fs : FileSystem σ) (path : Path) : Option (Document σ) :=
  if path.fileName.isSome && fs.opens path then fs.files (path.location fs.workingDirectory) else none

/-- How the sections of a file are decoded, in a context `κ` that every file starts anew, and merged into
the config; `recursion` is how deep the file is. -/
structure Decoder (σ κ ρ γ : Type) where
  fresh : κ
  decode : κ → String → σ → κ × List DecodeError × Except DecodeError ρ
  default : γ
  merge : γ → (recursion : ℕ) → ρ → γ

variable {σ κ ρ γ : Type}

/-- What the files of a config share. -/
structure Shared (γ : Type) where
  config : γ
  includes : List Path
  includeErrors : List (List DecodeError)
  /-- How deep the files were that have been parsed. -/
  parsed : List ℕ

/-- The state of reading one file. -/
structure Context (κ γ : Type) where
  shared : Shared γ
  errors : List DecodeError
  locals : κ
  seen : List String

def Context.emitError (ctx : Context κ γ) (error : DecodeError) : Context κ γ :=
  { ctx with errors := ctx.errors ++ [error] }

def Context.emitErrors (ctx : Context κ γ) (errors : List DecodeError) : Context κ γ :=
  { ctx with errors := ctx.errors ++ errors }

section Decode

variable (fs : FileSystem σ) (d : Decoder σ κ ρ γ)
  /- How an included file is parsed: the shared state, how deep, the path, the files above, the text. -/
  (parseInclude : Shared γ → ℕ → Path → List Path → Document σ → Option (Shared γ × List DecodeError))
  (recursion : ℕ) (base : Path) (includeStack : List Path)

def decodeInclude (ctx : Context κ γ) (path : Path) : Option (Context κ γ) :=
  let path := base.join path
  let recursion := recursion + 1
  if recursion = RECURSION_LIMIT then some (ctx.emitError .recursionLimit)
  else if path.fileName ≠ some true then some (ctx.emitError .invalidFileName)
  else if path ∈ includeStack then some (ctx.emitError .recursiveInclude)
  else
    let includeStack := path :: includeStack
    -- Stored even if the include fails to read or parse.
    let shared := { ctx.shared with includes := ctx.shared.includes ++ [path] }
    match fs.read path with
    | none => some ({ ctx with shared }.emitError .failedToRead)
    | some document => do
      let (shared, errors) ← parseInclude shared recursion path includeStack document
      if errors = [] then some { ctx with shared }
      else
        let shared := { shared with includeErrors := shared.includeErrors ++ [errors] }
        some ({ ctx with shared }.emitError .failedToParse)

def decodeSection (ctx : Context κ γ) (name : String) (body : σ) : Context κ γ × Option DecodeError :=
  let (locals, errors, part) := d.decode ctx.locals name body
  let ctx := { ctx with locals, errors := ctx.errors ++ errors }
  match part with
  | .error e => (ctx, some e)
  | .ok part =>
    ({ ctx with shared := { ctx.shared with config := d.merge ctx.shared.config recursion part } }, none)

/-- One node that may stand here; the error is the one that ends the file. -/
def decodeFresh (ctx : Context κ γ) : Node σ → Option (Context κ γ × Option DecodeError)
  | .includeFile (.error e) _ => some (ctx, some e)
  | .includeFile (.ok path) surplus => do
    let ctx := ctx.emitErrors surplus
    let ctx ← decodeInclude fs parseInclude recursion base includeStack ctx path
    some (ctx, none)
  | .configSection name body => some (decodeSection d recursion ctx name body)
  | .unknown name => some (ctx.emitError (.unexpectedNode name), none)

/-- Within one file, sections are not split, except those that add new values. -/
def decodeNode (ctx : Context κ γ) (node : Node σ) : Option (Context κ γ × Option DecodeError) :=
  if node.name ∈ multipart then decodeFresh fs d parseInclude recursion base includeStack ctx node
  else if node.name ∈ ctx.seen then some (ctx.emitError (.duplicateNode node.name), none)
  else
    decodeFresh fs d parseInclude recursion base includeStack
      { ctx with seen := ctx.seen ++ [node.name] } node

def decodeChildren (ctx : Context κ γ) : List (Node σ) → Option (Context κ γ × Option DecodeError)
  | [] => some (ctx, none)
  | node :: nodes => do
    match ← decodeNode fs d parseInclude recursion base includeStack ctx node with
    | (ctx, some e) => some (ctx, some e)
    | (ctx, none) => decodeChildren ctx nodes

end Decode

/-- `knuffel::parse_with_context`; `none` is out of fuel. -/
def parseWithContext (fs : FileSystem σ) (d : Decoder σ κ ρ γ) : (fuel : ℕ) → Shared γ →
    (recursion : ℕ) → Path → List Path → Document σ → Option (Shared γ × List DecodeError)
  | 0, _, _, _, _, _ => none
  | fuel + 1, shared, recursion, path, includeStack, document =>
    let shared := { shared with parsed := shared.parsed ++ [recursion] }
    match document with
    | none => some (shared, [.inSection "syntax error"])
    | some nodes => do
      let (ctx, fails) ← decodeChildren fs d (parseWithContext fs d fuel) recursion path.parent
        includeStack ⟨shared, [], d.fresh, []⟩ nodes
      some (ctx.shared, ctx.errors ++ fails.toList)

structure ConfigParseResult (γ : Type) where
  /-- The errors are those of the main file, then those of each included file that failed. -/
  config : Except (List DecodeError × List (List DecodeError)) γ
  includes : List Path
  /-- How deep the files were that have been parsed. -/
  parsed : List ℕ

/-- `Config::parse`. -/
def parse (fs : FileSystem σ) (d : Decoder σ κ ρ γ) (fuel : ℕ) (path : Path) (text : Document σ) :
    Option (ConfigParseResult γ) := do
  let (shared, errors) ← parseWithContext fs d fuel ⟨d.default, [], [], []⟩ 0 path [path] text
  some
    { config := if errors = [] then .ok shared.config else .error (errors, shared.includeErrors)
      includes := shared.includes
      parsed := shared.parsed }

/-! What the files say, in the depth-first order of the include nodes. -/

/-- What a node adds: a part of the config, or the path of another file. -/
inductive Item (ρ : Type)
  | file (path : Path)
  | decoded (part : ρ)

/-- A file by itself: what it says up to the node that ends it, and its own errors. -/
def scan (d : Decoder σ κ ρ γ) : κ → List String → List (Node σ) → List (Item ρ) × List DecodeError
  | _, _, [] => ([], [])
  | locals, seen, node :: nodes =>
    if node.name ∉ multipart ∧ node.name ∈ seen then
      let (items, errors) := scan d locals seen nodes
      (items, .duplicateNode node.name :: errors)
    else
      let seen := if node.name ∈ multipart then seen else seen ++ [node.name]
      match node with
      | .includeFile (.error e) _ => ([], [e])
      | .includeFile (.ok path) surplus =>
        let (items, errors) := scan d locals seen nodes
        (.file path :: items, surplus ++ errors)
      | .configSection name body =>
        match d.decode locals name body with
        | (_, errors, .error e) => ([], errors ++ [e])
        | (locals, errors, .ok part) =>
          let (items, errors') := scan d locals seen nodes
          (.decoded part :: items, errors ++ errors')
      | .unknown name =>
        let (items, errors) := scan d locals seen nodes
        (items, .unexpectedNode name :: errors)

inductive Event (ρ : Type)
  | included (path : Path)
  | merged (recursion : ℕ) (part : ρ)

def Event.path? : Event ρ → Option Path
  | included path => some path
  | merged .. => none

def Event.mergeInto (d : Decoder σ κ ρ γ) (config : γ) : Event ρ → γ
  | included _ => config
  | merged recursion part => d.merge config recursion part

def Item.events (recursion : ℕ) (fileEvents : Path → List (Event ρ)) : Item ρ → List (Event ρ)
  | .decoded part => [.merged recursion part]
  | .file arg => fileEvents arg

/-- The includes that are not followed. -/
def rejected (recursion : ℕ) (path : Path) (includeStack : List Path) : Bool :=
  recursion = RECURSION_LIMIT || path.fileName ≠ some true || path ∈ includeStack

/-- Every file is read where it is included, but for the includes that `skip` leaves out; `levels` bounds
how deep. -/
def events (fs : FileSystem σ) (d : Decoder σ κ ρ γ) (skip : ℕ → Path → List Path → Bool) :
    (levels : ℕ) → (recursion : ℕ) → Path → List Path → Document σ → List (Event ρ)
  | 0, _, _, _, _ => []
  | _, _, _, _, none => []
  | levels + 1, recursion, path, includeStack, some nodes =>
    (scan d d.fresh [] nodes).1.flatMap <| Item.events recursion fun arg =>
      let path := path.parent.join arg
      if skip (recursion + 1) path includeStack then []
      else
        .included path :: match fs.read path with
          | none => []
          | some document =>
            events fs d skip levels (recursion + 1) path (path :: includeStack) document

/-- A chain of includes from the main file, the innermost file first, and what is read there. -/
inductive Chain (fs : FileSystem σ) (root : Path) (text : Document σ) :
    List Path → Option (Document σ) → Prop
  | main : Chain fs root text [root] (some text)
  | includes {path : Path} {above : List Path} {nodes : List (Node σ)} {arg : Path}
    {surplus : List DecodeError} :
    Chain fs root text (path :: above) (some (some nodes)) → .includeFile (.ok arg) surplus ∈ nodes →
      Chain fs root text (path.parent.join arg :: path :: above) (fs.read (path.parent.join arg))

end Macniri.ConfigFiles

import Macniri.Lib.Query
import Macniri.NiriConfig.Includes

/-! Loading the config, whatever its paths lead to, and which files decide the result. -/
namespace Macniri.ConfigFiles.Load

open Option

open NiriConfig (DecodeError RECURSION_LIMIT multipart)

/-- What a path leads to; `some none` is a file that cannot be read as text. -/
abbrev Found (σ : Type) := Option (Option (Document σ))

abbrev Reader (σ : Type) := Query Path (Found σ)

variable {σ κ ρ γ : Type}

/-- `Path::exists`. -/
def pathExists (path : Path) : Reader σ Bool := .ask path fun found => .done found.isSome

/-- `fs::read_to_string`. -/
def readToString (path : Path) : Reader σ (Option (Document σ)) :=
  .ask path fun found => .done found.join

section Decode

variable (d : Decoder σ κ ρ γ)
  /- How an included file is parsed: the shared state, how deep, its path, those above, the text. -/
  (parseInclude : Shared γ → ℕ → Path → List Path → Document σ →
    Reader σ (Shared γ × List DecodeError))
  (recursion : ℕ) (base : Path) (includeStack : List Path)

def decodeInclude (ctx : Context κ γ) (path : Path) : Reader σ (Context κ γ) :=
  let path := base.join path
  let recursion := recursion + 1
  if recursion = RECURSION_LIMIT then pure (ctx.emitError .recursionLimit)
  else if path.fileName ≠ some true then pure (ctx.emitError .invalidFileName)
  else if path ∈ includeStack then pure (ctx.emitError .recursiveInclude)
  else do
    let includeStack := path :: includeStack
    -- Stored even if the include fails to read or parse.
    let shared := { ctx.shared with includes := ctx.shared.includes ++ [path] }
    match ← readToString path with
    | none => pure ({ ctx with shared }.emitError .failedToRead)
    | some document =>
      let (shared, errors) ← parseInclude shared recursion path includeStack document
      if errors = [] then pure { ctx with shared }
      else
        let shared := { shared with includeErrors := shared.includeErrors ++ [errors] }
        pure ({ ctx with shared }.emitError .failedToParse)

/-- One node that may stand here; the error is the one that ends the file. -/
def decodeFresh (ctx : Context κ γ) : Node σ → Reader σ (Context κ γ × Option DecodeError)
  | .includeFile (.error e) _ => pure (ctx, some e)
  | .includeFile (.ok path) surplus => do
    let ctx := ctx.emitErrors surplus
    let ctx ← decodeInclude parseInclude recursion base includeStack ctx path
    pure (ctx, none)
  | .configSection name body => pure (decodeSection d recursion ctx name body)
  | .unknown name => pure (ctx.emitError (.unexpectedNode name), none)

def decodeNode (ctx : Context κ γ) (node : Node σ) :
    Reader σ (Context κ γ × Option DecodeError) :=
  if node.name ∈ multipart then decodeFresh d parseInclude recursion base includeStack ctx node
  else if node.name ∈ ctx.seen then pure (ctx.emitError (.duplicateNode node.name), none)
  else
    decodeFresh d parseInclude recursion base includeStack
      { ctx with seen := ctx.seen ++ [node.name] } node

def decodeChildren (ctx : Context κ γ) :
    List (Node σ) → Reader σ (Context κ γ × Option DecodeError)
  | [] => pure (ctx, none)
  | node :: nodes => do
    match ← decodeNode d parseInclude recursion base includeStack ctx node with
    | (ctx, some e) => pure (ctx, some e)
    | (ctx, none) => decodeChildren ctx nodes

end Decode

/-- `knuffel::parse_with_context`; with as many levels as are left to the recursion limit, it never
runs out of them. -/
def parseWithContext (d : Decoder σ κ ρ γ) : (levels : ℕ) → Shared γ → (recursion : ℕ) → Path →
    List Path → Document σ → Reader σ (Shared γ × List DecodeError)
  | 0, shared, _, _, _, _ => pure (shared, [.recursionLimit])
  | levels + 1, shared, recursion, path, includeStack, document =>
    let shared := { shared with parsed := shared.parsed ++ [recursion] }
    match document with
    | none => pure (shared, [.inSection "syntax error"])
    | some nodes => do
      let (ctx, fails) ← decodeChildren d (parseWithContext d levels) recursion path.parent
        includeStack ⟨shared, [], d.fresh, []⟩ nodes
      pure (ctx.shared, ctx.errors ++ fails.toList)

inductive LoadError
  | noConfigFile
  | reading (path : Path)
  /-- The errors of the main file, then those of each included file that failed. -/
  | parsing (main : List DecodeError) (includes : List (List DecodeError))

structure ConfigParseResult (γ : Type) where
  config : Except LoadError γ
  includes : List Path

def ConfigParseResult.fromErr (error : LoadError) : ConfigParseResult γ := ⟨.error error, []⟩

/-- `Config::parse`. -/
def parse (d : Decoder σ κ ρ γ) (path : Path) (text : Document σ) :
    Reader σ (ConfigParseResult γ) := do
  let (shared, errors) ←
    parseWithContext d RECURSION_LIMIT ⟨d.default, [], [], []⟩ 0 path [path] text
  pure
    { config := if errors = [] then .ok shared.config
        else .error (.parsing errors shared.includeErrors)
      includes := shared.includes }

/-- `Config::load`. -/
def loadFile (d : Decoder σ κ ρ γ) (path : Path) : Reader σ (ConfigParseResult γ) := do
  match ← readToString path with
  | none => pure (.fromErr (.reading path))
  | some text => parse d path text

inductive ConfigPath
  | explicit (path : Path)
  | regular (userPath systemPath : Path)

/-- `ConfigPath::load`. -/
def ConfigPath.load (d : Decoder σ κ ρ γ) : ConfigPath → Reader σ (ConfigParseResult γ)
  | explicit path => loadFile d path
  | regular userPath systemPath => do
    if ← pathExists userPath then loadFile d userPath
    else if ← pathExists systemPath then loadFile d systemPath
    else pure (.fromErr .noConfigFile)

/-! The includes are the files that are opened below the main file. -/

variable {f : Path → Found σ} {path : Path}

@[simp] theorem eval_readToString : (readToString path).eval f = (f path).join := rfl

@[simp] theorem asked_readToString : (readToString path).asked f = [path] := rfl

theorem eval_ifExists {α : Type} (q q' : Reader σ α) :
    (do if ← pathExists path then q else q').eval f =
      if (f path).isSome then q.eval f else q'.eval f := by
  cases h : f path <;> simp [pathExists, Query.eval, h]

theorem asked_ifExists {α : Type} (q q' : Reader σ α) :
    (do if ← pathExists path then q else q').asked f =
      path :: if (f path).isSome then q.asked f else q'.asked f := by
  cases h : f path <;> simp [pathExists, Query.eval, Query.asked, h]

/-- `includes` grows by the files that are asked for. -/
def Records {α : Type} (q : Reader σ α) (before : List Path) (includes : α → List Path) : Prop :=
  ∀ f, includes (q.eval f) = before ++ q.asked f

section Records

variable {d : Decoder σ κ ρ γ}
  {parseInclude : Shared γ → ℕ → Path → List Path → Document σ →
    Reader σ (Shared γ × List DecodeError)}
  (hparse : ∀ shared recursion path includeStack document,
    Records (parseInclude shared recursion path includeStack document) shared.includes
      (·.1.includes))
  (recursion : ℕ) (base : Path) (includeStack : List Path)

include hparse

theorem records_decodeInclude (ctx : Context κ γ) (path : Path) :
    Records (decodeInclude parseInclude recursion base includeStack ctx path) ctx.shared.includes
      (·.shared.includes) := by
  intro f
  unfold decodeInclude
  dsimp only
  split
  · simp [Context.emitError]
  split
  · simp [Context.emitError]
  split
  · simp [Context.emitError]
  rw [Query.eval_bind, Query.asked_bind, eval_readToString, asked_readToString]
  cases (f (base.join path)).join with
  | none => simp [Context.emitError]
  | some document =>
    dsimp only
    have hincluded := hparse { ctx.shared with includes := ctx.shared.includes ++ [base.join path] }
      (recursion + 1) (base.join path) (base.join path :: includeStack) document f
    rw [Query.eval_bind, Query.asked_bind]
    split
    · simpa using hincluded
    · simpa [Context.emitError] using hincluded

theorem records_decodeFresh (ctx : Context κ γ) (node : Node σ) :
    Records (decodeFresh d parseInclude recursion base includeStack ctx node) ctx.shared.includes
      (·.1.shared.includes) := by
  intro f
  cases node with
  | includeFile path surplus =>
    cases path with
    | error e => simp [decodeFresh]
    | ok path =>
      have hinclude :=
        records_decodeInclude hparse recursion base includeStack (ctx.emitErrors surplus) path f
      simpa [decodeFresh, Context.emitErrors] using hinclude
  | configSection name body =>
    simp only [decodeFresh, decodeSection, Query.eval_pure, Query.asked_pure, List.append_nil]
    split
    · rfl
    · rfl
  | unknown name => simp [decodeFresh, Context.emitError]

theorem records_decodeNode (ctx : Context κ γ) (node : Node σ) :
    Records (decodeNode d parseInclude recursion base includeStack ctx node) ctx.shared.includes
      (·.1.shared.includes) := by
  unfold decodeNode
  split
  · exact records_decodeFresh hparse recursion base includeStack ctx node
  split
  · intro f
    simp [Context.emitError]
  · exact records_decodeFresh hparse recursion base includeStack _ node

theorem records_decodeChildren (ctx : Context κ γ) (nodes : List (Node σ)) :
    Records (decodeChildren d parseInclude recursion base includeStack ctx nodes)
      ctx.shared.includes (·.1.shared.includes) := by
  intro f
  induction nodes generalizing ctx with
  | nil => simp [decodeChildren]
  | cons node nodes ih =>
    have hnode := records_decodeNode (d := d) hparse recursion base includeStack ctx node f
    rw [decodeChildren, Query.eval_bind, Query.asked_bind]
    generalize (decodeNode d parseInclude recursion base includeStack ctx node).eval f = r at *
    obtain ⟨ctx', fails⟩ := r
    cases fails with
    | some e => simpa using hnode
    | none =>
      dsimp only at hnode ⊢
      rw [← List.append_assoc, ← hnode]
      exact ih ctx'

end Records

theorem records_parseWithContext (d : Decoder σ κ ρ γ) (levels : ℕ) (shared : Shared γ)
    (recursion : ℕ) (path : Path) (includeStack : List Path) (document : Document σ) :
    Records (parseWithContext d levels shared recursion path includeStack document) shared.includes
      (·.1.includes) := by
  induction levels generalizing shared recursion path includeStack document with
  | zero =>
    intro f
    simp [parseWithContext]
  | succ levels ih =>
    intro f
    cases document with
    | none => simp [parseWithContext]
    | some nodes =>
      have hchildren := records_decodeChildren (d := d) ih recursion path.parent includeStack
        ⟨{ shared with parsed := shared.parsed ++ [recursion] }, [], d.fresh, []⟩ nodes f
      simpa [parseWithContext] using hchildren

theorem includes_parse (d : Decoder σ κ ρ γ) (path : Path) (text : Document σ) (f : Path → Found σ) :
    ((parse d path text).eval f).includes = (parse d path text).asked f := by
  have hparse :=
    records_parseWithContext d RECURSION_LIMIT ⟨d.default, [], [], []⟩ 0 path [path] text f
  simpa [parse] using hparse

/-- The main file is opened first, and then its includes. -/
theorem asked_loadFile (d : Decoder σ κ ρ γ) (path : Path) (f : Path → Found σ) :
    (loadFile d path).asked f = path :: ((loadFile d path).eval f).includes := by
  unfold loadFile
  rw [Query.eval_bind, Query.asked_bind, eval_readToString, asked_readToString]
  cases (f path).join with
  | none => rfl
  | some text => exact congrArg (path :: ·) (includes_parse d path text f).symm

/-! On a file system without links this is what `ConfigFiles.parse` does. -/

/-- What its paths lead to. -/
def found (fs : FileSystem σ) (path : Path) : Found σ := (fs.read path).map some

theorem join_found (fs : FileSystem σ) (path : Path) : (found fs path).join = fs.read path := by
  unfold found
  cases fs.read path with
  | none => rfl
  | some document => rfl

section Refines

variable {d : Decoder σ κ ρ γ} {fs : FileSystem σ}
  {parseFile : Shared γ → ℕ → Path → List Path → Document σ → Option (Shared γ × List DecodeError)}
  {parseInclude : Shared γ → ℕ → Path → List Path → Document σ →
    Reader σ (Shared γ × List DecodeError)}
  {recursion : ℕ}
  (hparse : recursion + 1 ≠ RECURSION_LIMIT → ∀ shared path includeStack document,
    parseFile shared (recursion + 1) path includeStack document =
      some ((parseInclude shared (recursion + 1) path includeStack document).eval (found fs)))
  (base : Path) (includeStack : List Path)

include hparse

theorem eval_decodeInclude (ctx : Context κ γ) (path : Path) :
    ConfigFiles.decodeInclude fs parseFile recursion base includeStack ctx path =
      some ((decodeInclude parseInclude recursion base includeStack ctx path).eval (found fs)) := by
  unfold ConfigFiles.decodeInclude decodeInclude
  dsimp only
  split
  · rfl
  rename_i hlimit
  split
  · rfl
  split
  · rfl
  rw [Query.eval_bind, eval_readToString, join_found]
  cases fs.read (base.join path) with
  | none => rfl
  | some document =>
    dsimp only
    rw [hparse hlimit, Query.eval_bind]
    dsimp only [bind_eq_bind, bind_some]
    split
    · rfl
    · rfl

theorem eval_decodeFresh (ctx : Context κ γ) (node : Node σ) :
    ConfigFiles.decodeFresh fs d parseFile recursion base includeStack ctx node =
      some ((decodeFresh d parseInclude recursion base includeStack ctx node).eval (found fs)) := by
  cases node with
  | includeFile path surplus =>
    cases path with
    | error e => rfl
    | ok path =>
      unfold ConfigFiles.decodeFresh decodeFresh
      dsimp only
      rw [eval_decodeInclude hparse, Query.eval_bind]
      rfl
  | configSection name body => rfl
  | unknown name => rfl

theorem eval_decodeNode (ctx : Context κ γ) (node : Node σ) :
    ConfigFiles.decodeNode fs d parseFile recursion base includeStack ctx node =
      some ((decodeNode d parseInclude recursion base includeStack ctx node).eval (found fs)) := by
  unfold ConfigFiles.decodeNode decodeNode
  split
  · exact eval_decodeFresh hparse base includeStack ctx node
  split
  · rfl
  · exact eval_decodeFresh hparse base includeStack _ node

theorem eval_decodeChildren (ctx : Context κ γ) (nodes : List (Node σ)) :
    ConfigFiles.decodeChildren fs d parseFile recursion base includeStack ctx nodes =
      some
        ((decodeChildren d parseInclude recursion base includeStack ctx nodes).eval (found fs)) := by
  induction nodes generalizing ctx with
  | nil => rfl
  | cons node nodes ih =>
    rw [ConfigFiles.decodeChildren, decodeChildren, eval_decodeNode hparse, Query.eval_bind]
    dsimp only [bind_eq_bind, bind_some]
    generalize (decodeNode d parseInclude recursion base includeStack ctx node).eval (found fs) = r
    obtain ⟨ctx', fails⟩ := r
    cases fails with
    | some e => rfl
    | none => exact ih ctx'

end Refines

theorem eval_parseWithContext (fs : FileSystem σ) (d : Decoder σ κ ρ γ) {levels recursion : ℕ}
    (hlevels : recursion + levels = RECURSION_LIMIT) (hpos : levels ≠ 0) (shared : Shared γ)
    (path : Path) (includeStack : List Path) (document : Document σ) :
    ConfigFiles.parseWithContext fs d levels shared recursion path includeStack document =
      some ((parseWithContext d levels shared recursion path includeStack document).eval
        (found fs)) := by
  induction levels generalizing recursion shared path includeStack document with
  | zero => exact absurd rfl hpos
  | succ levels ih =>
    cases document with
    | none => rfl
    | some nodes =>
      unfold ConfigFiles.parseWithContext parseWithContext
      dsimp only
      have hbelow (hlimit : recursion + 1 ≠ RECURSION_LIMIT) :=
        ih (show recursion + 1 + levels = RECURSION_LIMIT by omega) (by omega)
      rw [eval_decodeChildren hbelow, Query.eval_bind]
      rfl

theorem parse_of_fileSystem (fs : FileSystem σ) (d : Decoder σ κ ρ γ) (path : Path)
    (text : Document σ) : ∃ result, ConfigFiles.parse fs d RECURSION_LIMIT path text = some result ∧
      ((parse d path text).eval (found fs)).includes = result.includes ∧
      ((parse d path text).eval (found fs)).config =
        result.config.mapError fun errors => .parsing errors.1 errors.2 := by
  unfold ConfigFiles.parse parse
  rw [eval_parseWithContext fs d (Nat.zero_add _) (by decide), Query.eval_bind]
  dsimp only [bind_eq_bind, bind_some]
  refine ⟨_, rfl, rfl, ?_⟩
  dsimp only [Query.eval_pure]
  split
  · rfl
  · rfl

end Macniri.ConfigFiles.Load

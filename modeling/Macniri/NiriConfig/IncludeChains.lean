import Macniri.Lib.Run
import Macniri.NiriConfig.Includes

/-! The parser terminates, reads the files in depth-first order, and accepts no file that includes itself. -/
namespace Macniri.ConfigFiles

open Option List

open NiriConfig (DecodeError RECURSION_LIMIT multipart)

variable {σ κ ρ γ : Type} {fs : FileSystem σ} {d : Decoder σ κ ρ γ} {evs evs' : List (Event ρ)}
  {s s' s'' : Shared γ} {ctx ctx' : Context κ γ} {recursion : ℕ} {base path : Path} {stack : List Path}
  {parseInclude : Shared γ → ℕ → Path → List Path → Document σ → Option (Shared γ × List DecodeError)}

/-- What reading adds to the shared state. -/
structure Follows (d : Decoder σ κ ρ γ) (evs : List (Event ρ)) (s s' : Shared γ) : Prop where
  includes : s'.includes = s.includes ++ evs.filterMap Event.path?
  config : s'.config = evs.foldl (Event.mergeInto d) s.config
  parsed : ∀ n ∈ s'.parsed, n ∈ s.parsed ∨ n < RECURSION_LIMIT

theorem Follows.refl : Follows d [] s s :=
  ⟨(append_nil _).symm, rfl, fun _ => .inl⟩

theorem Follows.trans (h : Follows d evs s s') (h' : Follows d evs' s' s'') :
    Follows d (evs ++ evs') s s'' := by
  refine ⟨?_, ?_, fun n hn => ?_⟩
  · rw [h'.includes, h.includes, filterMap_append, append_assoc]
  · rw [h'.config, h.config, foldl_append]
  · exact (h'.parsed n hn).elim (h.parsed n) .inr

/-- What an include does to the state of the file, and what no error means. -/
def Includes (fs : FileSystem σ) (d : Decoder σ κ ρ γ)
    (parseInclude : Shared γ → ℕ → Path → List Path → Document σ → Option (Shared γ × List DecodeError))
    (recursion : ℕ) (base : Path) (stack : List Path) (fileEvents : Path → List (Event ρ))
    (accepted : Path → Prop) : Prop :=
  ∀ arg (ctx : Context κ γ), ∃ ctx', decodeInclude fs parseInclude recursion base stack ctx arg = some ctx' ∧
    ctx'.locals = ctx.locals ∧ ctx'.seen = ctx.seen ∧
    Follows d (fileEvents arg) ctx.shared ctx'.shared ∧
    (ctx'.errors = [] → ctx.errors = [] ∧ accepted arg)

theorem decodeNode_eq (node : Node σ) :
    decodeNode fs d parseInclude recursion base stack ctx node =
      if node.name ∉ multipart ∧ node.name ∈ ctx.seen then
        some (ctx.emitError (.duplicateNode node.name), none)
      else decodeFresh fs d parseInclude recursion base stack
        { ctx with seen := if node.name ∈ multipart then ctx.seen else ctx.seen ++ [node.name] } node := by
  unfold decodeNode
  by_cases hm : node.name ∈ multipart
  · simp [hm]
  · simp [hm]

/-- A file does what its nodes say in order; without errors, each of its includes was accepted. -/
theorem decodeChildren_spec {fileEvents : Path → List (Event ρ)} {accepted : Path → Prop}
    (hinclude : Includes fs d parseInclude recursion base stack fileEvents accepted)
    (nodes : List (Node σ)) (ctx : Context κ γ) :
    ∃ ctx' fails,
      decodeChildren fs d parseInclude recursion base stack ctx nodes = some (ctx', fails) ∧
      Follows d ((scan d ctx.locals ctx.seen nodes).1.flatMap (Item.events recursion fileEvents))
        ctx.shared ctx'.shared ∧
      (ctx'.errors ++ fails.toList = [] → ctx.errors = [] ∧ (scan d ctx.locals ctx.seen nodes).2 = [] ∧
        ∀ arg surplus, .includeFile (.ok arg) surplus ∈ nodes → accepted arg) := by
  induction nodes generalizing ctx with
  | nil =>
    refine ⟨ctx, none, rfl, .refl, fun h => ⟨(append_eq_nil_iff.mp h).1, rfl, fun arg surplus harg => ?_⟩⟩
    cases harg
  | cons node nodes ih =>
    unfold decodeChildren scan
    rw [decodeNode_eq]
    by_cases hdup : node.name ∉ multipart ∧ node.name ∈ ctx.seen
    · rw [if_pos hdup, if_pos hdup]
      obtain ⟨ctx', fails, heq, hfollows, herrors⟩ := ih (ctx.emitError (.duplicateNode node.name))
      refine ⟨ctx', fails, heq, hfollows, fun h => ?_⟩
      simpa [Context.emitError] using (herrors h).1
    rw [if_neg hdup, if_neg hdup]
    generalize (if node.name ∈ multipart then ctx.seen else ctx.seen ++ [node.name]) = seen
    cases node with
    | includeFile arg surplus =>
      cases arg with
      | error e =>
        exact ⟨_, some e, rfl, .refl, fun h => absurd h (by simp)⟩
      | ok arg =>
        obtain ⟨ctx₁, heq₁, hlocals, hseen, hfollows₁, herrors₁⟩ :=
          hinclude arg ({ ctx with seen }.emitErrors surplus)
        obtain ⟨ctx', fails, heq, hfollows, herrors⟩ := ih ctx₁
        rw [hlocals, hseen] at hfollows herrors
        refine ⟨ctx', fails, ?_, hfollows₁.trans hfollows, fun h => ?_⟩
        · simp only [decodeFresh, heq₁, some_bind, heq]
        · obtain ⟨hctx₁, hscan, haccepted⟩ := herrors h
          obtain ⟨hctx, harg⟩ := herrors₁ hctx₁
          obtain ⟨hown, rfl⟩ := append_eq_nil_iff.mp hctx
          refine ⟨hown, hscan, fun arg' surplus hmem => ?_⟩
          obtain heq' | hmem := mem_cons.mp hmem
          · obtain rfl : arg' = arg := by
              injection heq' with heq'
              exact Except.ok.inj heq'
            exact harg
          · exact haccepted arg' surplus hmem
    | configSection name body =>
      rcases hdecode : d.decode ctx.locals name body with ⟨locals, errors, e | part⟩
      · simp only [decodeFresh, decodeSection, hdecode, some_bind]
        exact ⟨_, some e, rfl, .refl, fun h => absurd h (by simp)⟩
      · simp only [decodeFresh, decodeSection, hdecode, some_bind]
        obtain ⟨ctx', fails, heq, hfollows, herrors⟩ := ih { ctx with
          seen, locals, errors := ctx.errors ++ errors,
          shared := { ctx.shared with config := d.merge ctx.shared.config recursion part } }
        have hmerge : Follows d [.merged recursion part] ctx.shared
            { ctx.shared with config := d.merge ctx.shared.config recursion part } :=
          ⟨(append_nil _).symm, rfl, fun _ => .inl⟩
        refine ⟨ctx', fails, heq, hmerge.trans hfollows, fun h => ?_⟩
        obtain ⟨hctx, hscan, haccepted⟩ := herrors h
        obtain ⟨hown, rfl⟩ := append_eq_nil_iff.mp hctx
        exact ⟨hown, hscan, fun arg surplus hmem =>
          haccepted arg surplus ((mem_cons.mp hmem).resolve_left nofun)⟩
    | unknown name =>
      obtain ⟨ctx', fails, heq, hfollows, herrors⟩ :=
        ih (Context.emitError { ctx with seen } (.unexpectedNode name))
      refine ⟨ctx', fails, heq, hfollows, fun h => ?_⟩
      simpa [Context.emitError] using (herrors h).1

/-- A file that is read without errors, and every file below it. -/
inductive Accepted (fs : FileSystem σ) (d : Decoder σ κ ρ γ) : ℕ → Path → List Path → Document σ → Prop
  | mk {recursion : ℕ} {path : Path} {stack : List Path} {nodes : List (Node σ)}
    (hscan : (scan d d.fresh [] nodes).2 = [])
    (hread : ∀ arg surplus, .includeFile (.ok arg) surplus ∈ nodes →
      rejected (recursion + 1) (path.parent.join arg) stack = false ∧
        (fs.read (path.parent.join arg)).isSome = true)
    (hbelow : ∀ arg surplus document, .includeFile (.ok arg) surplus ∈ nodes →
      fs.read (path.parent.join arg) = some document →
        Accepted fs d (recursion + 1) (path.parent.join arg) (path.parent.join arg :: stack) document) :
    Accepted fs d recursion path stack (some nodes)

/-- What is read below an include of the file `path`. -/
def eventsBelow (fs : FileSystem σ) (d : Decoder σ κ ρ γ) (skip : ℕ → Path → List Path → Bool)
    (levels recursion : ℕ) (path : Path) (stack : List Path) (arg : Path) : List (Event ρ) :=
  if skip (recursion + 1) (path.parent.join arg) stack then []
  else
    .included (path.parent.join arg) :: match fs.read (path.parent.join arg) with
      | none => []
      | some document => events fs d skip levels (recursion + 1) (path.parent.join arg)
        (path.parent.join arg :: stack) document

def AcceptedBelow (fs : FileSystem σ) (d : Decoder σ κ ρ γ) (recursion : ℕ) (path : Path)
    (stack : List Path) (arg : Path) : Prop :=
  rejected (recursion + 1) (path.parent.join arg) stack = false ∧
    ∃ document, fs.read (path.parent.join arg) = some document ∧
      Accepted fs d (recursion + 1) (path.parent.join arg) (path.parent.join arg :: stack) document

theorem decodeInclude_eq (arg : Path) :
    decodeInclude fs parseInclude recursion base stack ctx arg =
      if recursion + 1 = RECURSION_LIMIT then some (ctx.emitError .recursionLimit)
      else if (base.join arg).fileName ≠ some true then some (ctx.emitError .invalidFileName)
      else if base.join arg ∈ stack then some (ctx.emitError .recursiveInclude)
      else
        match fs.read (base.join arg) with
        | none => some (Context.emitError
          { ctx with shared.includes := ctx.shared.includes ++ [base.join arg] } .failedToRead)
        | some document =>
          (parseInclude { ctx.shared with includes := ctx.shared.includes ++ [base.join arg] }
            (recursion + 1) (base.join arg) (base.join arg :: stack) document).bind fun (shared, errors) =>
              if errors = [] then some { ctx with shared := shared }
              else some (Context.emitError { ctx with
                shared := { shared with includeErrors := shared.includeErrors ++ [errors] } }
                  .failedToParse) :=
  rfl

theorem follows_included (path : Path) :
    Follows d [.included path] s { s with includes := s.includes ++ [path] } :=
  ⟨rfl, rfl, fun _ => .inl⟩

/-- An include reads what the files below it say. -/
theorem includes_parse {fuel : ℕ} (levels : ℕ) (hlt : recursion < RECURSION_LIMIT)
    (ih : recursion + 1 < RECURSION_LIMIT → ∀ (s : Shared γ) path stack document, ∃ s' errors,
      parseWithContext fs d fuel s (recursion + 1) path stack document = some (s', errors) ∧
      Follows d (events fs d rejected levels (recursion + 1) path stack document) s s' ∧
      (errors = [] → Accepted fs d (recursion + 1) path stack document)) :
    Includes fs d (parseWithContext fs d fuel) recursion path.parent stack
      (eventsBelow fs d rejected levels recursion path stack)
      (AcceptedBelow fs d recursion path stack) := by
  intro arg ctx
  rw [decodeInclude_eq]
  unfold eventsBelow AcceptedBelow
  generalize path.parent.join arg = path
  have hemit : ∀ error : DecodeError, (ctx.emitError error).errors ≠ [] := fun _ => by
    simp [Context.emitError]
  by_cases hlimit : recursion + 1 = RECURSION_LIMIT
  · refine ⟨_, if_pos hlimit, rfl, rfl, ?_, fun h => absurd h (hemit _)⟩
    rw [show rejected (recursion + 1) path stack = true by simp [rejected, hlimit], if_pos rfl]
    exact .refl
  rw [if_neg hlimit]
  by_cases hname : path.fileName ≠ some true
  · refine ⟨_, if_pos hname, rfl, rfl, ?_, fun h => absurd h (hemit _)⟩
    rw [show rejected (recursion + 1) path stack = true by simp [rejected, hname], if_pos rfl]
    exact .refl
  rw [if_neg hname]
  by_cases hstack : path ∈ stack
  · refine ⟨_, if_pos hstack, rfl, rfl, ?_, fun h => absurd h (hemit _)⟩
    rw [show rejected (recursion + 1) path stack = true by simp [rejected, hstack], if_pos rfl]
    exact .refl
  rw [if_neg hstack]
  have hrej : rejected (recursion + 1) path stack = false := by
    simpa [rejected, hlimit, hstack] using hname
  rw [hrej, if_neg Bool.false_ne_true]
  cases fs.read path with
  | none => exact ⟨_, rfl, rfl, rfl, follows_included path, fun h => absurd h (hemit _)⟩
  | some document =>
    obtain ⟨s', errors, heq, hfollows, haccepted⟩ := ih (by omega)
      { ctx.shared with includes := ctx.shared.includes ++ [path] } path (path :: stack) document
    simp only [heq, bind_some]
    have hboth := (follows_included path).trans hfollows
    by_cases he : errors = []
    · exact ⟨_, if_pos he, rfl, rfl, hboth, fun h => ⟨h, trivial, document, rfl, haccepted he⟩⟩
    · refine ⟨_, if_neg he, rfl, rfl, ⟨hboth.includes, hboth.config, hboth.parsed⟩, fun h => ?_⟩
      exact absurd h (hemit _)

/-- With fuel down to the recursion limit the parser returns. -/
theorem parseWithContext_spec (fs : FileSystem σ) (d : Decoder σ κ ρ γ) {fuel levels : ℕ}
    (hlt : recursion < RECURSION_LIMIT) (hfuel : RECURSION_LIMIT ≤ recursion + fuel)
    (hlevels : RECURSION_LIMIT ≤ recursion + levels) (s : Shared γ) (path : Path) (stack : List Path)
    (document : Document σ) :
    ∃ s' errors, parseWithContext fs d fuel s recursion path stack document = some (s', errors) ∧
      Follows d (events fs d rejected levels recursion path stack document) s s' ∧
      (errors = [] → Accepted fs d recursion path stack document) := by
  induction fuel generalizing levels recursion s path stack document with
  | zero => omega
  | succ fuel ih =>
    obtain ⟨levels, rfl⟩ : ∃ n, levels = n + 1 := ⟨levels - 1, by omega⟩
    have hparsed : Follows d [] s { s with parsed := s.parsed ++ [recursion] } := by
      refine ⟨(append_nil _).symm, rfl, fun n hn => ?_⟩
      obtain hn | hn := mem_append.mp hn
      · exact .inl hn
      · exact .inr (mem_singleton.mp hn ▸ hlt)
    cases document with
    | none => exact ⟨_, _, rfl, hparsed, nofun⟩
    | some nodes =>
      obtain ⟨ctx, fails, heq, hfollows, herrors⟩ := decodeChildren_spec
        (includes_parse levels hlt fun hlt => ih hlt (by omega) (by omega)) nodes
        ⟨{ s with parsed := s.parsed ++ [recursion] }, [], d.fresh, []⟩
      refine ⟨_, _, by rw [parseWithContext, heq]; rfl, hparsed.trans hfollows, fun h => ?_⟩
      obtain ⟨-, hscan, haccepted⟩ := herrors h
      refine .mk hscan (fun arg surplus harg => ?_) fun arg surplus document harg hread => ?_
      · obtain ⟨hnot, document, hread, -⟩ := haccepted arg surplus harg
        exact ⟨hnot, by rw [hread]; rfl⟩
      · obtain ⟨-, document', hread', hbelow⟩ := haccepted arg surplus harg
        obtain rfl := some.inj (hread.symm.trans hread')
        exact hbelow

/-! More fuel changes nothing. -/

theorem decodeInclude_mono
    {parse' : Shared γ → ℕ → Path → List Path → Document σ → Option (Shared γ × List DecodeError)}
    (hp : ∀ s n path stack document r, parseInclude s n path stack document = some r →
      parse' s n path stack document = some r) {arg : Path}
    (h : decodeInclude fs parseInclude recursion base stack ctx arg = some ctx') :
    decodeInclude fs parse' recursion base stack ctx arg = some ctx' := by
  rw [decodeInclude_eq] at h ⊢
  split
  · rwa [if_pos ‹_›] at h
  rw [if_neg ‹_›] at h
  split
  · rwa [if_pos ‹_›] at h
  rw [if_neg ‹_›] at h
  split
  · rwa [if_pos ‹_›] at h
  rw [if_neg ‹_›] at h
  cases hread : fs.read (base.join arg) with
  | none => simpa only [hread] using h
  | some document =>
    simp only [hread] at h ⊢
    obtain ⟨⟨s₁, errors⟩, hparse, h⟩ := of_bind h
    exact bind_eq_some_iff.mpr ⟨_, hp _ _ _ _ _ _ hparse, h⟩

theorem decodeNode_mono
    {parse' : Shared γ → ℕ → Path → List Path → Document σ → Option (Shared γ × List DecodeError)}
    (hp : ∀ s n path stack document r, parseInclude s n path stack document = some r →
      parse' s n path stack document = some r) {node : Node σ} {r : Context κ γ × Option DecodeError}
    (h : decodeNode fs d parseInclude recursion base stack ctx node = some r) :
    decodeNode fs d parse' recursion base stack ctx node = some r := by
  rw [decodeNode_eq] at h ⊢
  split
  · rwa [if_pos ‹_›] at h
  rw [if_neg ‹_›] at h
  cases node with
  | includeFile arg surplus =>
    cases arg with
    | error e => exact h
    | ok arg =>
      obtain ⟨ctx₁, h₁, h⟩ := of_bind h
      exact bind_eq_some_iff.mpr ⟨ctx₁, decodeInclude_mono hp h₁, h⟩
  | configSection name body => exact h
  | unknown name => exact h

theorem decodeChildren_mono
    {parse' : Shared γ → ℕ → Path → List Path → Document σ → Option (Shared γ × List DecodeError)}
    (hp : ∀ s n path stack document r, parseInclude s n path stack document = some r →
      parse' s n path stack document = some r) {nodes : List (Node σ)}
    {r : Context κ γ × Option DecodeError}
    (h : decodeChildren fs d parseInclude recursion base stack ctx nodes = some r) :
    decodeChildren fs d parse' recursion base stack ctx nodes = some r := by
  induction nodes generalizing ctx with
  | nil => exact h
  | cons node nodes ih =>
    unfold decodeChildren at h ⊢
    obtain ⟨⟨ctx₁, fails⟩, hnode, h⟩ := of_bind h
    refine bind_eq_some_iff.mpr ⟨_, decodeNode_mono hp hnode, ?_⟩
    cases fails with
    | some e => exact h
    | none => exact ih h

theorem parseWithContext_mono {fuel fuel' : ℕ} (hle : fuel ≤ fuel') {document : Document σ}
    {r : Shared γ × List DecodeError}
    (h : parseWithContext fs d fuel s recursion path stack document = some r) :
    parseWithContext fs d fuel' s recursion path stack document = some r := by
  induction fuel generalizing fuel' s recursion path stack document r with
  | zero => cases h
  | succ fuel ih =>
    obtain ⟨fuel', rfl⟩ : ∃ n, fuel' = n + 1 := ⟨fuel' - 1, by omega⟩
    cases document with
    | none => exact h
    | some nodes =>
      unfold parseWithContext at h ⊢
      obtain ⟨⟨ctx, fails⟩, hchildren, h⟩ := of_bind h
      refine bind_eq_some_iff.mpr ⟨_, decodeChildren_mono (fun _ _ _ _ _ _ hr => ?_) hchildren, h⟩
      exact ih (by omega) hr

/-! Where paths lead. -/

theorem Path.location_parent {path : Path} (h : path.fileName.isSome = true) (dir : Location) :
    path.parent.location dir = (path.location dir).tail := by
  obtain ⟨absolute, components⟩ := path
  unfold fileName at h
  split at h
  · rename_i name unicode hlast
    obtain ⟨init, rfl⟩ := getLast?_eq_some_iff.mp hlast
    simp [parent, location, Component.enter]
  · cases h

theorem foldl_enter_filter (components : List Component) (dir : Location) :
    (components.filter (· ≠ .curDir)).foldl Component.enter dir = components.foldl Component.enter dir := by
  induction components generalizing dir with
  | nil => rfl
  | cons c components ih =>
    cases c with
    | curDir => exact ih dir
    | parentDir => exact ih _
    | normal name unicode => exact ih _

theorem Path.location_join (base path : Path) (dir : Location) :
    (base.join path).location dir =
      if path.absolute then path.location dir
      else path.components.foldl Component.enter (base.location dir) := by
  unfold join
  split
  · rfl
  · rename_i hrel
    split
    · rename_i hempty
      subst hempty
      simp [location, hrel, empty]
    · have hfilter := foldl_enter_filter path.components (base.location dir)
      simpa [location] using hfilter

/-- Two paths that are read at the same place are one file, and its includes lead to the same places. -/
theorem FileSystem.same_place {p q : Path} {document document' : Document σ}
    (hp : fs.read p = some document) (hq : fs.read q = some document')
    (hloc : p.location fs.workingDirectory = q.location fs.workingDirectory) :
    document = document' ∧ ∀ arg, (p.parent.join arg).location fs.workingDirectory =
      (q.parent.join arg).location fs.workingDirectory := by
  unfold read at hp hq
  split at hp
  · split at hq
    · rename_i hpname hqname
      rw [hloc] at hp
      refine ⟨some.inj (hp.symm.trans hq), fun arg => ?_⟩
      rw [Path.location_join, Path.location_join,
        Path.location_parent (Bool.and_eq_true_iff.mp hpname).1,
        Path.location_parent (Bool.and_eq_true_iff.mp hqname).1, hloc]
    · cases hq
  · cases hp

/-! The chains of an accepted file. -/

section Chains

variable {root : Path} {text : Document σ} {chain : List Path} {document : Option (Document σ)}

/-- Every file of an accepted config is read without errors, as deep as its chain is long. -/
theorem Chain.accepted (h : Chain fs root text chain document)
    (haccepted : Accepted fs d 0 root [root] text) :
    ∃ path above content, chain = path :: above ∧ document = some content ∧
      Accepted fs d above.length path (path :: above) content ∧ above.length < RECURSION_LIMIT := by
  induction h with
  | main => exact ⟨root, [], text, rfl, rfl, haccepted, by decide⟩
  | @includes path above nodes arg _ _ hmem ih =>
    obtain ⟨_, _, _, heq, hcontent, hacc, hlt⟩ := ih
    obtain ⟨rfl, rfl⟩ := List.cons.inj heq
    obtain rfl := some.inj hcontent
    obtain ⟨hscan, hread, hbelow⟩ := hacc
    obtain ⟨hrej, hsome⟩ := hread arg _ hmem
    obtain ⟨content, hcontent⟩ := isSome_iff_exists.mp hsome
    refine ⟨_, _, content, rfl, hcontent, hbelow arg _ content hmem hcontent, ?_⟩
    -- The counter of the include is not at the limit, so it stays below.
    have hne : above.length + 1 ≠ RECURSION_LIMIT := by
      intro hlimit
      simp [rejected, hlimit] at hrej
    rw [length_cons]
    omega

/-- What is read at the end of a chain is what its path leads to. -/
theorem Chain.read (h : Chain fs root text chain document) (hroot : fs.read root = some text) :
    ∃ path above, chain = path :: above ∧ fs.read path = document := by
  cases h with
  | main => exact ⟨root, [], rfl, hroot⟩
  | includes _ _ => exact ⟨_, _, rfl, rfl⟩

theorem Chain.cons_inv {path : Path} (above : List Path)
    (h : Chain fs root text (path :: above) document) (hne : above ≠ []) :
    ∃ includer rest nodes arg surplus, above = includer :: rest ∧
      Chain fs root text above (some (some nodes)) ∧ .includeFile (.ok arg) surplus ∈ nodes ∧
      path = includer.parent.join arg := by
  cases h with
  | main => exact absurd rfl hne
  | includes h hmem => exact ⟨_, _, _, _, _, rfl, h, hmem, rfl⟩

theorem Chain.drop {q : Path} {qs l : List Path} (h : Chain fs root text (l ++ q :: qs) document) :
    ∃ content, Chain fs root text (q :: qs) content := by
  induction l generalizing document with
  | nil => exact ⟨_, h⟩
  | cons path l ih =>
    obtain ⟨_, _, nodes, _, _, -, habove, -, -⟩ := Chain.cons_inv _ h (by simp)
    exact ih habove

/-- The chain continues from another file at the same place. -/
theorem Chain.transfer (haccepted : Accepted fs d 0 root [root] text) (hroot : fs.read root = some text)
    {q p : Path} {qs ps l : List Path} {document' : Option (Document σ)}
    (hl : Chain fs root text (l ++ q :: qs) document) (hp : Chain fs root text (p :: ps) document')
    (hloc : p.location fs.workingDirectory = q.location fs.workingDirectory) :
    ∃ l' content, l'.length = l.length ∧ Chain fs root text (l' ++ p :: ps) content ∧
      (l' ++ p :: ps).head?.map (·.location fs.workingDirectory) =
        (l ++ q :: qs).head?.map (·.location fs.workingDirectory) := by
  induction l generalizing document with
  | nil => exact ⟨[], document', rfl, hp, by simp [hloc]⟩
  | cons path l ih =>
    obtain ⟨includer, rest, nodes, arg, _, hcons, habove, hmem, rfl⟩ :=
      Chain.cons_inv (l ++ q :: qs) hl (by simp)
    obtain ⟨l', content, hlen, hchain, hhead⟩ := ih habove
    obtain ⟨includer', rest', content', hcons', rfl, hacc, -⟩ := hchain.accepted haccepted
    obtain ⟨_, _, he, hread⟩ := habove.read hroot
    obtain ⟨_, _, he', hread'⟩ := hchain.read hroot
    obtain ⟨rfl, -⟩ := List.cons.inj (hcons.symm.trans he)
    obtain ⟨rfl, -⟩ := List.cons.inj (hcons'.symm.trans he')
    have hplace : includer'.location fs.workingDirectory = includer.location fs.workingDirectory := by
      rw [hcons, hcons'] at hhead
      simpa using hhead
    obtain ⟨rfl, hjoin⟩ := fs.same_place hread' hread hplace
    rw [hcons'] at hchain
    refine ⟨includer'.parent.join arg :: l', fs.read (includer'.parent.join arg), by simp [hlen], ?_, ?_⟩
    · rw [cons_append, hcons']
      exact hchain.includes hmem
    · simpa using hjoin arg

/-- A chain that comes back to a place goes on for ever. -/
theorem Chain.pump (haccepted : Accepted fs d 0 root [root] text) (hroot : fs.read root = some text)
    {path q : Path} {qs l : List Path} (hl : Chain fs root text (path :: l ++ q :: qs) document)
    (hloc : path.location fs.workingDirectory = q.location fs.workingDirectory) (n : ℕ) :
    ∃ p ps content, Chain fs root text (p :: ps) content ∧ n ≤ ps.length ∧
      p.location fs.workingDirectory = q.location fs.workingDirectory := by
  induction n with
  | zero =>
    obtain ⟨content, h⟩ := Chain.drop hl
    exact ⟨q, qs, content, h, Nat.zero_le _, rfl⟩
  | succ n ih =>
    obtain ⟨p, ps, content, hp, hn, hplace⟩ := ih
    obtain ⟨l', content', hlen, hchain, hhead⟩ := Chain.transfer haccepted hroot hl hp hplace
    cases l' with
    | nil => cases hlen
    | cons p' l' =>
      refine ⟨p', l' ++ p :: ps, content', hchain, ?_, ?_⟩
      · rw [length_append, length_cons]
        omega
      · have : p'.location fs.workingDirectory = path.location fs.workingDirectory := by simpa using hhead
        rw [this, hloc]

/-- No chain of an accepted config comes back to a file. -/
theorem Chain.nodup (h : Chain fs root text chain document) (haccepted : Accepted fs d 0 root [root] text)
    (hroot : fs.read root = some text) : (chain.map (·.location fs.workingDirectory)).Nodup := by
  induction h with
  | main => exact nodup_singleton _
  | @includes path above nodes arg _ hchain hmem ih =>
    refine nodup_cons.mpr ⟨fun hagain => ?_, ih⟩
    obtain ⟨q, hq, hloc⟩ := List.mem_map.mp hagain
    obtain ⟨l, qs, hsplit⟩ := append_of_mem hq
    have hlong := hchain.includes hmem
    rw [hsplit] at hlong
    obtain ⟨p, ps, content, hp, hn, -⟩ := Chain.pump haccepted hroot hlong hloc.symm RECURSION_LIMIT
    obtain ⟨_, _, _, hcons, -, -, hlt⟩ := hp.accepted haccepted
    obtain ⟨-, rfl⟩ := List.cons.inj hcons
    omega

end Chains

/-! The whole parse. -/

theorem includeFile_mem_of_scan {locals : κ} {seen : List String} {nodes : List (Node σ)} {arg : Path}
    (h : .file arg ∈ (scan d locals seen nodes).1) :
    ∃ surplus, .includeFile (.ok arg) surplus ∈ nodes := by
  induction nodes generalizing locals seen with
  | nil => cases h
  | cons node nodes ih =>
    have below {locals seen} (h : .file arg ∈ (scan d locals seen nodes).1) :
        ∃ surplus, .includeFile (.ok arg) surplus ∈ node :: nodes :=
      (ih h).imp fun _ => mem_cons_of_mem _
    unfold scan at h
    split at h
    · exact below h
    generalize (if node.name ∈ multipart then seen else seen ++ [node.name]) = seen' at h
    cases node with
    | includeFile included surplus =>
      cases included with
      | error e => cases h
      | ok included =>
        obtain h | h := mem_cons.mp h
        · obtain rfl := Item.file.inj h
          exact ⟨surplus, mem_cons_self ..⟩
        · exact below h
    | configSection name body =>
      dsimp only at h
      split at h
      · cases h
      · exact below ((mem_cons.mp h).resolve_left nofun)
    | unknown name => exact below h

/-- Every include is followed. -/
def noSkip (_ : ℕ) (_ : Path) (_ : List Path) : Bool := false

/-- In an accepted config no include is left out. -/
theorem Accepted.events_eq {document : Document σ} (h : Accepted fs d recursion path stack document)
    (levels : ℕ) : events fs d rejected levels recursion path stack document =
      events fs d noSkip levels recursion path stack document := by
  induction levels generalizing recursion path stack document with
  | zero => rfl
  | succ levels ih =>
    obtain ⟨-, hread, hbelow⟩ := h
    refine flatMap_congr fun item hitem => ?_
    cases item with
    | decoded part => rfl
    | file arg =>
      obtain ⟨_, hmem⟩ := includeFile_mem_of_scan hitem
      obtain ⟨hrej, hsome⟩ := hread arg _ hmem
      obtain ⟨document, hdocument⟩ := isSome_iff_exists.mp hsome
      simp only [Item.events, hrej, noSkip, hdocument, Bool.false_eq_true, if_false]
      rw [ih (hbelow arg _ document hmem hdocument)]

theorem parse_includes (fs : FileSystem σ) (d : Decoder σ κ ρ γ) (path : Path) (text : Document σ) :
    ∃ result, (∀ fuel, RECURSION_LIMIT ≤ fuel → parse fs d fuel path text = some result) ∧
      (∀ n ∈ result.parsed, n < RECURSION_LIMIT) ∧
      (∀ levels, RECURSION_LIMIT ≤ levels → result.includes =
        (events fs d rejected levels 0 path [path] text).filterMap Event.path?) ∧
      ∀ config, result.config = .ok config →
        (∀ chain document, Chain fs path text chain document →
          (∃ nodes, document = some (some nodes) ∧ (scan d d.fresh [] nodes).2 = []) ∧
          chain.length ≤ RECURSION_LIMIT ∧
          (fs.read path = some text → (chain.map (·.location fs.workingDirectory)).Nodup)) ∧
        ∀ levels, RECURSION_LIMIT ≤ levels →
          config = (events fs d noSkip levels 0 path [path] text).foldl (Event.mergeInto d) d.default ∧
          result.includes = (events fs d noSkip levels 0 path [path] text).filterMap Event.path? := by
  have hspec := fun levels (hlevels : RECURSION_LIMIT ≤ levels) =>
    parseWithContext_spec fs d (by decide : 0 < RECURSION_LIMIT) (by decide : _ ≤ 0 + RECURSION_LIMIT)
      (by simpa using hlevels : _ ≤ 0 + levels) ⟨d.default, [], [], []⟩ path [path] text
  obtain ⟨shared, errors, heq, hfollows, haccepted⟩ := hspec RECURSION_LIMIT le_rfl
  have hfollows' : ∀ levels, RECURSION_LIMIT ≤ levels →
      Follows d (events fs d rejected levels 0 path [path] text) ⟨d.default, [], [], []⟩ shared := by
    intro levels hlevels
    obtain ⟨s', errors', heq', hfollows', -⟩ := hspec levels hlevels
    obtain ⟨rfl, -⟩ := pair_inj (heq.symm.trans heq')
    exact hfollows'
  refine ⟨⟨if errors = [] then .ok shared.config else .error (errors, shared.includeErrors),
    shared.includes, shared.parsed⟩, fun fuel hfuel => ?_, fun n hn => ?_, fun levels hlevels => ?_,
    fun config hconfig => ?_⟩
  · rw [parse, parseWithContext_mono hfuel heq]
    rfl
  · exact (hfollows.parsed n hn).resolve_left (by simp)
  · exact (hfollows' levels hlevels).includes
  · have herrors : errors = [] := by
      by_contra hne
      simp [hne] at hconfig
    obtain rfl : shared.config = config := by simpa [herrors] using hconfig
    have hacc := haccepted herrors
    refine ⟨fun chain document hchain => ?_, fun levels hlevels => ?_⟩
    · obtain ⟨p, above, content, rfl, rfl, hfile, hlt⟩ := hchain.accepted hacc
      obtain ⟨hscan, -, -⟩ := hfile
      exact ⟨⟨_, rfl, hscan⟩, hlt, hchain.nodup hacc⟩
    · rw [← hacc.events_eq levels]
      exact ⟨(hfollows' levels hlevels).config, (hfollows' levels hlevels).includes⟩

end Macniri.ConfigFiles

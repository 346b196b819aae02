import Macniri.NiriConfig.Parse

/-! An accepted config holds what its files say, with the included ones in their place. -/
namespace Macniri.NiriConfig

open Option List

open Layout (eqIgnoreAsciiCase)

variable {α π : Type} {ctx ctx' ctx'' : Context α π}

/-- A name up to ASCII case. -/
def lowercase (name : String) : List Char := name.toList.map Char.toLower

/-- No two of the names are equal up to ASCII case. -/
def Distinct (names : List String) : Prop := (names.map lowercase).Nodup

theorem eqIgnoreAsciiCase_iff {a b : String} :
    eqIgnoreAsciiCase a b = true ↔ lowercase a = lowercase b := by
  unfold eqIgnoreAsciiCase lowercase
  exact beq_iff_eq

theorem Distinct.concat {names : List String} {s : String} (h : Distinct names)
    (hs : (names.any fun name => eqIgnoreAsciiCase name s) = false) : Distinct (names ++ [s]) := by
  unfold Distinct
  rw [map_append, map_singleton, nodup_append]
  refine ⟨h, nodup_singleton _, fun a ha b hb heq => ?_⟩
  obtain ⟨name, hname, rfl⟩ := List.mem_map.mp ha
  obtain rfl := mem_singleton.mp hb
  exact List.any_eq_false.mp hs name hname (eqIgnoreAsciiCase_iff.mpr heq)

/-- What was read between two states of a file without errors: its binds sections, the names of its own
workspaces, and those of each included file. -/
structure Reads (sections : List (List (Bind α))) (own : List String) (others : List (List String))
    (ctx ctx' : Context α π) : Prop where
  errors : ctx.errors = []
  binds : ctx'.config.binds = sections.foldl mergeBinds ctx.config.binds
  nameSet : ctx'.workspaceNameSet = ctx.workspaceNameSet ++ own
  distinct : Distinct ctx.workspaceNameSet → Distinct ctx'.workspaceNameSet
  workspaces : ctx'.config.workspaces.Perm (ctx.config.workspaces ++ (own ++ others.flatten))
  others : ∀ names ∈ others, Distinct names

theorem Reads.refl (h : ctx.errors = []) : Reads [] [] [] ctx ctx :=
  ⟨h, rfl, (append_nil _).symm, id, by simp, by simp⟩

theorem Reads.trans {sections sections' : List (List (Bind α))} {own own' : List String}
    {others others' : List (List String)} (h : Reads sections own others ctx ctx')
    (h' : Reads sections' own' others' ctx' ctx'') :
    Reads (sections ++ sections') (own ++ own') (others ++ others') ctx ctx'' := by
  refine ⟨h.errors, ?_, ?_, fun hd => h'.distinct (h.distinct hd), ?_, fun names hmem => ?_⟩
  · rw [h'.binds, h.binds, foldl_append]
  · rw [h'.nameSet, h.nameSet, append_assoc]
  · refine h'.workspaces.trans ((h.workspaces.append_right _).trans ?_)
    simp only [append_assoc, flatten_append]
    refine Perm.append_left _ (Perm.append_left _ ?_)
    exact perm_append_comm_assoc ..
  · rcases mem_append.mp hmem with hmem | hmem
    · exact h.others names hmem
    · exact h'.others names hmem

/-! The nodes. -/

theorem decodeBinds_ok {children : List (Except DecodeError (Bind α))} {seenKeys : List Key}
    (h : (decodeBinds children seenKeys).1 = []) :
    (decodeBinds children seenKeys).2 = children.filterMap Except.toOption := by
  induction children generalizing seenKeys with
  | nil => rfl
  | cons child children ih =>
    cases child with
    | error e => cases h
    | ok bind =>
      unfold decodeBinds at h ⊢
      split_ifs at h ⊢
      exact congrArg (bind :: ·) (ih h)

theorem decodeWorkspaceName_ok {n : Literal} (h : (decodeWorkspaceName ctx n).1.errors = []) :
    ∃ s, n = .string s ∧ ctx.errors = [] ∧
      (ctx.workspaceNameSet.any fun name => eqIgnoreAsciiCase name s) = false ∧
      decodeWorkspaceName ctx n =
        ({ ctx with workspaceNameSet := ctx.workspaceNameSet ++ [s] }, s) := by
  cases n with
  | other => simp [decodeWorkspaceName, Context.emitError] at h
  | string s =>
    cases hany : ctx.workspaceNameSet.any fun name => eqIgnoreAsciiCase name s with
    | true => simp [decodeWorkspaceName, hany, Context.emitError] at h
    | false =>
      simp only [decodeWorkspaceName, hany, Bool.false_eq_true, if_false] at h ⊢
      exact ⟨s, rfl, h, hany, rfl⟩

variable [DecidableEq π] {fs : FileSystem α π} {base : π} {stack : List π}
  {parseInclude : Option (Config α π → π → Option (List (Node α)) → Config α π × List DecodeError)}
  {S : String → List (List (Bind α))} {N : String → List (List String)}

/-- What an include reads, if it is read without errors. -/
def ReadsInclude (fs : FileSystem α π)
    (parseInclude : Option (Config α π → π → Option (List (Node α)) → Config α π × List DecodeError))
    (base : π) (stack : List π) (S : String → List (List (Bind α))) (N : String → List (List String)) :
    Prop :=
  ∀ ctx arg, (decodeInclude fs parseInclude base stack ctx arg).errors = [] →
    Reads (S arg) [] (N arg) ctx (decodeInclude fs parseInclude base stack ctx arg)

omit [DecidableEq π] in
theorem reads_seen {secs : List (List (Bind α))} {own : List String} {others : List (List String)}
    {seen : List String} (h : Reads secs own others { ctx with seen } ctx') :
    Reads secs own others ctx ctx' :=
  ⟨h.errors, h.binds, h.nameSet, h.distinct, h.workspaces, h.others⟩

theorem decodeFresh_ok (hinclude : ReadsInclude fs parseInclude base stack S N) {node : Node α}
    (h : decodeFresh fs parseInclude base stack ctx node = (ctx', none)) (he : ctx'.errors = []) :
    Reads (node.sections S) node.workspaceName.toList (node.otherNames N) ctx ctx' := by
  cases node with
  | binds errors children =>
    obtain ⟨rfl, -⟩ := Prod.mk.inj h
    obtain ⟨hctx, herrors⟩ := append_eq_nil_iff.mp he
    obtain ⟨-, hchildren⟩ := append_eq_nil_iff.mp herrors
    refine ⟨hctx, ?_, (append_nil _).symm, id, by simp [Node.workspaceName, Node.otherNames],
      by simp [Node.otherNames]⟩
    change mergeBinds _ _ = mergeBinds _ _
    rw [decodeBinds_ok hchildren]
  | workspace name errors fails =>
    change pushWorkspace (decodeWorkspaceName ctx name) errors fails = (ctx', none) at h
    have hok := fun h : (decodeWorkspaceName ctx name).1.errors = [] => decodeWorkspaceName_ok h
    generalize decodeWorkspaceName ctx name = decoded at h hok
    cases fails with
    | some e => cases (Prod.mk.inj h).2
    | none =>
      obtain ⟨rfl, -⟩ := Prod.mk.inj h
      obtain ⟨hname, herrors⟩ := append_eq_nil_iff.mp he
      obtain ⟨s, rfl, hctx, hany, rfl⟩ := hok hname
      refine ⟨hctx, rfl, rfl, fun hd => hd.concat hany, ?_, by simp [Node.otherNames]⟩
      simp [Node.workspaceName, Node.otherNames, Context.emitErrors]
  | includeFile path surplus =>
    cases path with
    | error e => simp [decodeFresh] at h
    | ok arg =>
      obtain ⟨rfl, -⟩ := Prod.mk.inj h
      have hreads := hinclude (ctx.emitErrors surplus) arg he
      obtain ⟨hctx, hsurplus⟩ := append_eq_nil_iff.mp hreads.errors
      exact ⟨hctx, hreads.binds, hreads.nameSet, hreads.distinct, hreads.workspaces, hreads.others⟩
  | otherSection name errors fails =>
    obtain ⟨rfl, rfl⟩ := Prod.mk.inj h
    obtain ⟨hctx, herrors⟩ := append_eq_nil_iff.mp he
    exact ⟨hctx, rfl, (append_nil _).symm, id, by simp [Node.workspaceName, Node.otherNames,
      Context.emitErrors], by simp [Node.otherNames]⟩
  | unknown name =>
    obtain ⟨rfl, -⟩ := Prod.mk.inj h
    simp [Context.emitError] at he

theorem decodeNode_ok (hinclude : ReadsInclude fs parseInclude base stack S N) {node : Node α}
    (h : decodeNode fs parseInclude base stack ctx node = (ctx', none)) (he : ctx'.errors = []) :
    Reads (node.sections S) node.workspaceName.toList (node.otherNames N) ctx ctx' := by
  unfold decodeNode at h
  split_ifs at h
  · exact decodeFresh_ok hinclude h he
  · obtain ⟨rfl, -⟩ := Prod.mk.inj h
    simp [Context.emitError] at he
  · exact reads_seen (decodeFresh_ok hinclude h he)

/-- A file that is read without errors. -/
theorem decodeChildren_ok (hinclude : ReadsInclude fs parseInclude base stack S N)
    {nodes : List (Node α)} (h : decodeChildren fs parseInclude base stack ctx nodes = (ctx', none))
    (he : ctx'.errors = []) :
    Reads (nodes.flatMap (Node.sections S)) (nodes.filterMap Node.workspaceName)
      (nodes.flatMap (Node.otherNames N)) ctx ctx' := by
  induction nodes generalizing ctx with
  | nil =>
    obtain ⟨rfl, -⟩ := Prod.mk.inj h
    exact .refl he
  | cons node nodes ih =>
    unfold decodeChildren at h
    split at h
    · simp at h
    next ctx₁ hnode =>
      have hrest := ih h
      have hfirst := decodeNode_ok hinclude hnode hrest.errors
      have hboth := hfirst.trans hrest
      rw [flatMap_cons, flatMap_cons]
      cases hname : node.workspaceName <;> simpa [hname] using hboth

/-! The files. -/

/-- The sections that an include stands for. -/
def includedSections (fs : FileSystem α π) (base : π) : ℕ → String → List (List (Bind α))
  | 0, _ => []
  | depth + 1, arg =>
    match includedFile fs base arg with
    | some (base, nodes) => bindsSections fs depth base nodes
    | none => []

/-- The names that an include stands for. -/
def includedNames (fs : FileSystem α π) (base : π) : ℕ → String → List (List String)
  | 0, _ => []
  | depth + 1, arg =>
    match includedFile fs base arg with
    | some (base, nodes) => workspaceNames fs depth base nodes
    | none => []

omit [DecidableEq π] in
theorem bindsSections_eq (fs : FileSystem α π) (depth : ℕ) (base : π) (nodes : List (Node α)) :
    bindsSections fs depth base nodes =
      nodes.flatMap (Node.sections (includedSections fs base depth)) := by
  cases depth <;> rfl

omit [DecidableEq π] in
theorem workspaceNames_eq (fs : FileSystem α π) (depth : ℕ) (base : π) (nodes : List (Node α)) :
    workspaceNames fs depth base nodes = nodes.filterMap Node.workspaceName ::
      nodes.flatMap (Node.otherNames (includedNames fs base depth)) := by
  cases depth with
  | zero =>
    have hnil : nodes.flatMap (Node.otherNames (includedNames fs base 0)) = [] := by
      rw [flatMap_eq_nil_iff]
      intro node _
      cases node with
      | includeFile path surplus => cases path <;> rfl
      | _ => rfl
    rw [hnil]
    rfl
  | succ depth => rfl

/-- A document is accepted with what its files say. -/
def Accepts (fs : FileSystem α π) (depth : ℕ) (base : π) (config : Config α π)
    (document : Option (List (Node α))) (config' : Config α π) : Prop :=
  ∃ nodes, document = some nodes ∧
    config'.binds = (bindsSections fs depth base nodes).foldl mergeBinds config.binds ∧
    config'.workspaces.Perm (config.workspaces ++ (workspaceNames fs depth base nodes).flatten) ∧
    ∀ names ∈ workspaceNames fs depth base nodes, Distinct names

theorem accepts_of_decodeChildren {depth : ℕ} {config : Config α π} {nodes : List (Node α)}
    {fails : Option DecodeError}
    (hinclude : ReadsInclude fs parseInclude base stack (includedSections fs base depth)
      (includedNames fs base depth))
    (h : decodeChildren fs parseInclude base stack ⟨config, [], [], []⟩ nodes = (ctx', fails))
    (he : ctx'.errors ++ fails.toList = []) :
    Accepts fs depth base config (some nodes) ctx'.config := by
  obtain ⟨herrors, hfails⟩ := append_eq_nil_iff.mp he
  obtain rfl := toList_eq_nil_iff.mp hfails
  have hreads := decodeChildren_ok hinclude h herrors
  refine ⟨nodes, rfl, ?_, ?_, ?_⟩
  · rw [bindsSections_eq]
    exact hreads.binds
  · rw [workspaceNames_eq, flatten_cons]
    exact hreads.workspaces
  · rw [workspaceNames_eq]
    intro names hmem
    rcases mem_cons.mp hmem with rfl | hmem
    · have hown := hreads.distinct nodup_nil
      rw [hreads.nameSet] at hown
      exact hown
    · exact hreads.others names hmem

/-- An include reads what the included file reads. -/
theorem readsInclude_parse {depth : ℕ}
    (ih : ∀ {base : π} {stack : List π} {config : Config α π} {document : Option (List (Node α))},
      (parseWithContext fs depth base stack config document).2 = [] →
        Accepts fs depth base config document
          (parseWithContext fs depth base stack config document).1) :
    ReadsInclude fs (some fun config path document =>
        parseWithContext fs depth (fs.parent path) (path :: stack) config document) base stack
      (includedSections fs base (depth + 1)) (includedNames fs base (depth + 1)) := by
  intro ctx arg he
  unfold decodeInclude at he ⊢
  dsimp only at he ⊢
  split_ifs at he ⊢ with hname hstack
  · simp [Context.emitError] at he
  · simp [Context.emitError] at he
  cases hread : fs.read (fs.join base arg) with
  | none => simp [hread, Context.emitError] at he
  | some document =>
    simp only [hread] at he ⊢
    split_ifs at he ⊢ with herrors
    · obtain ⟨nodes, rfl, hbinds, hworkspaces, hnames⟩ := ih herrors
      have hincluded : includedFile fs base arg = some (fs.parent (fs.join base arg), nodes) := by
        unfold includedFile
        rw [hread]
        rfl
      refine ⟨he, ?_, (append_nil _).symm, id, ?_, ?_⟩
      · simpa only [includedSections, hincluded] using hbinds
      · simpa only [includedNames, hincluded, nil_append] using hworkspaces
      · simpa only [includedNames, hincluded] using hnames
    · simp [Context.emitError] at he

/-- What a file reads if it is accepted. -/
theorem parseWithContext_ok {depth : ℕ} {config : Config α π} {document : Option (List (Node α))}
    (h : (parseWithContext fs depth base stack config document).2 = []) :
    Accepts fs depth base config document
      (parseWithContext fs depth base stack config document).1 := by
  induction depth generalizing base stack config document with
  | zero =>
    cases document with
    | none => cases h
    | some nodes =>
      refine accepts_of_decodeChildren (fun ctx arg he => ?_) rfl h
      simp [decodeInclude, Context.emitError] at he
  | succ depth ih =>
    cases document with
    | none => cases h
    | some nodes =>
      exact accepts_of_decodeChildren (readsInclude_parse fun h => ih h) rfl h

theorem parse_ok {path : π} {document : Option (List (Node α))} {config : Config α π}
    (h : parse fs path document = .ok config) :
    Accepts fs (RECURSION_LIMIT - 1) (fs.parent path) ⟨[], [], [], []⟩ document config := by
  unfold parse at h
  dsimp only at h
  split_ifs at h with herrors
  obtain rfl := Except.ok.inj h
  exact parseWithContext_ok herrors

theorem distinct_iff {names : List String} :
    Distinct names ↔ names.Pairwise fun a b => eqIgnoreAsciiCase a b = false := by
  unfold Distinct
  rw [Nodup, pairwise_map]
  constructor
  · refine Pairwise.imp fun hne => ?_
    rw [← Bool.not_eq_true]
    exact fun heq => hne (eqIgnoreAsciiCase_iff.mp heq)
  · refine Pairwise.imp fun hne heq => ?_
    rw [eqIgnoreAsciiCase_iff.mpr heq] at hne
    cases hne

theorem pairwise_disjoint_iff {names : List (List String)} :
    (names.map (List.map lowercase)).Pairwise List.Disjoint ↔
      names.Pairwise fun a b => ∀ x ∈ a, ∀ y ∈ b, eqIgnoreAsciiCase x y = false := by
  rw [pairwise_map]
  constructor
  · refine Pairwise.imp fun hdisjoint x hx y hy => ?_
    rw [← Bool.not_eq_true]
    intro heq
    refine hdisjoint (List.mem_map_of_mem hx) ?_
    rw [eqIgnoreAsciiCase_iff.mp heq]
    exact List.mem_map_of_mem hy
  · refine Pairwise.imp fun hne n ha hb => ?_
    obtain ⟨x, hx, rfl⟩ := List.mem_map.mp ha
    obtain ⟨y, hy, heq⟩ := List.mem_map.mp hb
    have := hne x hx y hy
    rw [eqIgnoreAsciiCase_iff.mpr heq.symm] at this
    cases this

/-- The bind that is found in an accepted config is one of the last section with a match, exactly if every
match in an earlier section has its key written again. -/
theorem found_in_last_iff (fs : FileSystem α π) (path : π) (nodes : List (Node α))
    (config : Config α π) (h : parse fs path (some nodes) = .ok config) (modKey : ModKey)
    (trigger : Trigger) (mods : ModifiersState) :
    FoundInLast (Bind.Matches modKey trigger mods)
        (bindsSections fs (RECURSION_LIMIT - 1) (fs.parent path) nodes)
        (findConfiguredBind config.binds modKey trigger mods) ↔
      EarlierRewritten (Bind.Matches modKey trigger mods)
        (bindsSections fs (RECURSION_LIMIT - 1) (fs.parent path) nodes) := by
  obtain ⟨nodes', hnodes, hbinds, -⟩ := parse_ok h
  obtain rfl := some.inj hnodes
  unfold findConfiguredBind
  rw [hbinds, mergeSections_eq]
  exact foundInLast_iff matches_congr

/-- The names of an accepted config are distinct exactly if no two readings of files share one. -/
theorem names_distinct_iff (fs : FileSystem α π) (path : π) (nodes : List (Node α))
    (config : Config α π) (h : parse fs path (some nodes) = .ok config) :
    (config.workspaces.Pairwise fun a b => eqIgnoreAsciiCase a b = false) ↔
      (workspaceNames fs (RECURSION_LIMIT - 1) (fs.parent path) nodes).Pairwise fun a b =>
        ∀ x ∈ a, ∀ y ∈ b, eqIgnoreAsciiCase x y = false := by
  obtain ⟨nodes', hnodes, -, hperm, hnames⟩ := parse_ok h
  obtain rfl := some.inj hnodes
  rw [← distinct_iff, ← pairwise_disjoint_iff, Distinct, (hperm.map lowercase).nodup_iff,
    nil_append, map_flatten, nodup_flatten]
  refine and_iff_right fun l hl => ?_
  obtain ⟨names, hmem, rfl⟩ := List.mem_map.mp hl
  exact hnames names hmem

section Example

/-- Two files, `config.kdl` and what it includes; the directories do not matter. -/
def twoFiles (document : List (Node ℕ)) : FileSystem ℕ String where
  join _ arg := arg
  parent _ := ""
  hasFileName _ := true
  read path := if path = "binds.kdl" then some (some document) else none

/-- A bind that spawns program `n`. -/
def spawnBind (modifier : Modifier) (n : ℕ) : Bind ℕ :=
  ⟨⟨.keysym 116, {modifier}⟩, n, true, none, false, true⟩

/-- The included file binds Super+T, the file that includes it then binds Mod+T. -/
def modOverSuper : List (Node ℕ) :=
  [.includeFile (.ok "binds.kdl") [], .binds [] [.ok (spawnBind .compositor 2)]]

def superDown : ModifiersState := ⟨false, false, false, true, false, false⟩

/-- With Super as Mod both binds match, and the earlier one is found. -/
theorem earlier_bind_found : ∃ config,
    parse (twoFiles [.binds [] [.ok (spawnBind .super 1)]]) "config.kdl" (some modOverSuper) =
      .ok config ∧
    ¬FoundInLast (Bind.Matches .super (.keysym 116) superDown)
      (bindsSections (twoFiles [.binds [] [.ok (spawnBind .super 1)]]) (RECURSION_LIMIT - 1) ""
        modOverSuper) (findConfiguredBind config.binds .super (.keysym 116) superDown) := by
  refine ⟨_, rfl, ?_⟩
  rintro ⟨part, hlast, hmem⟩
  have hpart : part = [spawnBind .compositor 2] := by
    have hlast' : some [spawnBind .compositor 2] = some part := hlast
    exact (some.inj hlast').symm
  subst hpart
  have hfound : spawnBind .super 1 ∈ [spawnBind .compositor 2] := hmem
  exact absurd hfound (by decide)

/-- The same key written twice is overridden. -/
theorem found_in_last_iff_mod : ∃ config,
    parse (twoFiles [.binds [] [.ok (spawnBind .compositor 1)]]) "config.kdl" (some modOverSuper) =
      .ok config ∧
    (FoundInLast (Bind.Matches .super (.keysym 116) superDown)
      (bindsSections (twoFiles [.binds [] [.ok (spawnBind .compositor 1)]]) (RECURSION_LIMIT - 1) ""
        modOverSuper) (findConfiguredBind config.binds .super (.keysym 116) superDown) ↔
    EarlierRewritten (Bind.Matches .super (.keysym 116) superDown)
      (bindsSections (twoFiles [.binds [] [.ok (spawnBind .compositor 1)]]) (RECURSION_LIMIT - 1) ""
        modOverSuper)) :=
  ⟨_, rfl, found_in_last_iff (twoFiles [.binds [] [.ok (spawnBind .compositor 1)]]) "config.kdl"
    modOverSuper _ rfl .super (.keysym 116) superDown⟩

/-- Both files declare the workspace. -/
def sameWorkspace : List (Node ℕ) :=
  [.workspace (.string "a") [] none, .includeFile (.ok "binds.kdl") []]

theorem included_name_repeated : ∃ config,
    parse (twoFiles [.workspace (.string "A") [] none]) "config.kdl" (some sameWorkspace) =
      .ok config ∧
    ¬config.workspaces.Pairwise fun a b => eqIgnoreAsciiCase a b = false := by
  refine ⟨_, rfl, fun h => ?_⟩
  have hpair : eqIgnoreAsciiCase "a" "A" = false := rel_of_pairwise_cons h (mem_singleton_self _)
  exact absurd hpair (by decide)

theorem names_distinct_iff_two : ∃ config,
    parse (twoFiles [.workspace (.string "b") [] none]) "config.kdl" (some sameWorkspace) =
      .ok config ∧
    ((config.workspaces.Pairwise fun a b => eqIgnoreAsciiCase a b = false) ↔
      (workspaceNames (twoFiles [.workspace (.string "b") [] none]) (RECURSION_LIMIT - 1) ""
        sameWorkspace).Pairwise fun a b => ∀ x ∈ a, ∀ y ∈ b, eqIgnoreAsciiCase x y = false) :=
  ⟨_, rfl, names_distinct_iff (twoFiles [.workspace (.string "b") [] none]) "config.kdl"
    sameWorkspace _ rfl⟩

end Example

end Macniri.NiriConfig

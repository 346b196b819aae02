import Macniri.Lib.Run
import Macniri.NiriConfig.Load

/-! The thread that reloads the config when one of its files changes. -/
namespace Macniri.ConfigFiles.Watcher

open Option List

open Load

variable {σ κ ρ γ : Type}

/-- What is at a place in the file system; it may not be readable as text. -/
structure Entry (σ : Type) where
  /-- In nanoseconds. -/
  mtime : ℤ
  contents : Option (Document σ)

/-- The file system at one time. -/
structure Snapshot (σ : Type) where
  /-- The place that a path leads to when all links are followed. -/
  canonicalize : Path → Option Path
  entries : Path → Option (Entry σ)

structure Props where
  mtime : ℤ
  canonical : Path
  deriving DecidableEq

namespace Snapshot

/-- What there is to read at a path. -/
def find (fs : Snapshot σ) (path : Path) : Option (Option (Document σ)) := do
  let canonical ← fs.canonicalize path
  let entry ← fs.entries canonical
  return entry.contents

/-- `Props::from_path`. -/
def propsFromPath (fs : Snapshot σ) (path : Path) : Option Props := do
  let canonical ← fs.canonicalize path
  let entry ← fs.entries canonical
  return ⟨entry.mtime, canonical⟩

/-- `Props::from_config_path`. -/
def propsFromConfigPath (fs : Snapshot σ) : ConfigPath → Option Props
  | .explicit path => fs.propsFromPath path
  | .regular userPath systemPath => (fs.propsFromPath userPath).or (fs.propsFromPath systemPath)

/-- Equal props in both mean equal contents. -/
def Agree (fs fs' : Snapshot σ) : Prop := ∀ place entry entry', fs.entries place = some entry →
  fs'.entries place = some entry' → entry.mtime = entry'.mtime → entry.contents = entry'.contents

end Snapshot

inductive CheckResult
  | missing
  | unchanged
  | changed
  deriving DecidableEq

structure WatcherInner where
  path : ConfigPath
  /-- Last observed props of the watched file. -/
  lastProps : Option Props
  /-- Last observed props of the included files; a path that is twice there has the same props. -/
  includes : List (Path × Option Props)

namespace WatcherInner

def setIncludes (inner : WatcherInner) (fs : Snapshot σ) (includes : List Path) : WatcherInner :=
  { inner with includes := includes.map fun path => (path, fs.propsFromPath path) }

def new (fs : Snapshot σ) (path : ConfigPath) (includes : List Path) : WatcherInner :=
  setIncludes ⟨path, fs.propsFromConfigPath path, []⟩ fs includes

def check (inner : WatcherInner) (fs : Snapshot σ) : CheckResult × WatcherInner :=
  match fs.propsFromConfigPath inner.path with
  | some newProps =>
    if inner.lastProps ≠ some newProps then
      (.changed, { inner with lastProps := some newProps })
    -- An include that goes missing is a change too.
    else if inner.includes.any fun (path, lastProps) => lastProps ≠ fs.propsFromPath path then
      (.changed, inner)
    else (.unchanged, inner)
  | none => (.missing, inner)

/-- The result of loading without the error, which is only logged. -/
def process (d : Decoder σ κ ρ γ) (path : ConfigPath) (fs : Snapshot σ) : Except Unit γ :=
  ((path.load d).eval fs.find).config.mapError fun _ => ()

/-- One iteration of the loop, with or without a request to load, and the config that it sends. -/
def iterate (d : Decoder σ κ ρ γ) (inner : WatcherInner) (fs : Snapshot σ) (shouldLoad : Bool) :
    WatcherInner × Option (Except Unit γ) :=
  match inner.check fs with
  | (.missing, inner) => (inner, none)
  | (result, inner) =>
    let shouldLoad := shouldLoad || result == .changed
    if shouldLoad then
      (inner.setIncludes fs ((inner.path.load d).eval fs.find).includes,
        some (process d inner.path fs))
    else (inner, none)

end WatcherInner

/-- The watcher, the config that was sent last, and the file system from which it was loaded. -/
structure World (σ γ : Type) where
  inner : WatcherInner
  config : Except Unit γ
  loaded : Snapshot σ

namespace World

/-- The initial config and its includes are loaded before the watcher starts. -/
def start (d : Decoder σ κ ρ γ) (path : ConfigPath) (fs : Snapshot σ) : World σ γ where
  inner := WatcherInner.new fs path ((path.load d).eval fs.find).includes
  config := WatcherInner.process d path fs
  loaded := fs

def step (d : Decoder σ κ ρ γ) (w : World σ γ) (iteration : Snapshot σ × Bool) : Option (World σ γ) :=
  match w.inner.iterate d iteration.1 iteration.2 with
  | (inner, some config) => some ⟨inner, config, iteration.1⟩
  | (inner, none) => some { w with inner }

end World

/-! What the watcher knows. -/

variable {d : Decoder σ κ ρ γ} {path : ConfigPath} {fs start : Snapshot σ} {w w' : World σ γ}
variable {history : List (Snapshot σ × Bool)} {requested : Bool}

/-- What the last load read at the time. -/
def World.lastLoad (d : Decoder σ κ ρ γ) (w : World σ γ) (path : ConfigPath) :
    Load.ConfigParseResult γ :=
  (path.load d).eval w.loaded.find

/-- The watcher remembers the last load. -/
structure Remembers (d : Decoder σ κ ρ γ) (path : ConfigPath) (w : World σ γ) : Prop where
  watched : w.inner.path = path
  lastProps : w.inner.lastProps = w.loaded.propsFromConfigPath path
  includes : w.inner.includes =
    (w.lastLoad d path).includes.map fun file => (file, w.loaded.propsFromPath file)
  config : w.config = WatcherInner.process d path w.loaded

theorem remembers_start (d : Decoder σ κ ρ γ) (path : ConfigPath) (fs : Snapshot σ) :
    Remembers d path (World.start d path fs) := ⟨rfl, rfl, rfl, rfl⟩

/-- Nothing that the watcher looks at differs from the last load. -/
def SeesNoChange (d : Decoder σ κ ρ γ) (path : ConfigPath) (w : World σ γ) (fs : Snapshot σ) : Prop :=
  fs.propsFromConfigPath path = w.loaded.propsFromConfigPath path ∧
    ∀ file ∈ (w.lastLoad d path).includes, fs.propsFromPath file = w.loaded.propsFromPath file

theorem any_includes_iff (h : Remembers d path w) (fs : Snapshot σ) :
    (w.inner.includes.any fun (file, lastProps) => lastProps ≠ fs.propsFromPath file) = true ↔
      ∃ file ∈ (w.lastLoad d path).includes,
        fs.propsFromPath file ≠ w.loaded.propsFromPath file := by
  rw [h.includes, List.any_map, List.any_eq_true]
  exact exists_congr fun file => and_congr_right fun _ => decide_eq_true_iff.trans ne_comm

theorem check_cases (h : Remembers d path w) (fs : Snapshot σ) :
    (fs.propsFromConfigPath path = none ∧ w.inner.check fs = (.missing, w.inner)) ∨
    (SeesNoChange d path w fs ∧ w.inner.check fs = (.unchanged, w.inner)) ∨
    (¬ SeesNoChange d path w fs ∧ w.inner.check fs =
      (.changed, { w.inner with lastProps := fs.propsFromConfigPath path })) := by
  obtain rfl := h.watched
  unfold WatcherInner.check
  cases hprops : fs.propsFromConfigPath w.inner.path with
  | none => exact .inl ⟨rfl, rfl⟩
  | some newProps =>
    right
    dsimp only
    by_cases hmain : w.inner.lastProps = some newProps
    · have hsame : fs.propsFromConfigPath w.inner.path =
          w.loaded.propsFromConfigPath w.inner.path := by
        rw [hprops, ← hmain, h.lastProps]
      have hinner : { w.inner with lastProps := some newProps } = w.inner := by rw [← hmain]
      rw [if_neg (not_not.mpr hmain), hinner]
      by_cases hany : (w.inner.includes.any fun (file, lastProps) =>
          lastProps ≠ fs.propsFromPath file) = true
      · rw [if_pos hany]
        obtain ⟨file, hfile, hne⟩ := (any_includes_iff h fs).mp hany
        exact .inr ⟨fun hsees => hne (hsees.2 file hfile), rfl⟩
      · rw [if_neg hany]
        refine .inl ⟨⟨hsame, fun file hfile => ?_⟩, rfl⟩
        by_contra hne
        exact hany ((any_includes_iff h fs).mpr ⟨file, hfile, hne⟩)
    · rw [if_pos hmain]
      refine .inr ⟨fun hsees => hmain ?_, rfl⟩
      rw [h.lastProps, ← hsees.1, hprops]

theorem iterate_of_check {inner inner' : WatcherInner} {result : CheckResult}
    (h : inner.check fs = (result, inner')) : inner.iterate d fs requested =
      if result = .missing ∨ requested = false ∧ result = .unchanged then (inner', none)
      else (inner'.setIncludes fs ((inner'.path.load d).eval fs.find).includes,
        some (WatcherInner.process d inner'.path fs)) := by
  unfold WatcherInner.iterate
  rw [h]
  cases result <;> cases requested <;> rfl

/-- An iteration sends nothing, or the config as it is now. -/
theorem step_cases (h : Remembers d path w) (hstep : w.step d (fs, requested) = some w') :
    (w' = w ∧ (w.inner.iterate d fs requested).2 = none ∧
      (fs.propsFromConfigPath path = none ∨ requested = false ∧ SeesNoChange d path w fs)) ∨
    (Remembers d path w' ∧ w'.loaded = fs ∧ (requested = true ∨ ¬ SeesNoChange d path w fs)) := by
  unfold World.step at hstep
  obtain ⟨hnone, hcheck⟩ | ⟨hsees, hcheck⟩ | ⟨hsees, hcheck⟩ := check_cases h fs
  · rw [iterate_of_check hcheck, if_pos (.inl rfl)] at hstep ⊢
    exact .inl ⟨(some.inj hstep).symm, rfl, .inl hnone⟩
  · cases requested with
    | false =>
      rw [iterate_of_check hcheck, if_pos (.inr ⟨rfl, rfl⟩)] at hstep ⊢
      exact .inl ⟨(some.inj hstep).symm, rfl, .inr ⟨rfl, hsees⟩⟩
    | true =>
      rw [iterate_of_check hcheck, if_neg (by simp)] at hstep
      obtain rfl := some.inj hstep
      obtain rfl := h.watched
      exact .inr ⟨⟨rfl, h.lastProps.trans hsees.1.symm, rfl, rfl⟩, rfl, .inl rfl⟩
  · rw [iterate_of_check hcheck, if_neg (by simp)] at hstep
    obtain rfl := some.inj hstep
    obtain rfl := h.watched
    exact .inr ⟨⟨rfl, rfl, rfl, rfl⟩, rfl, .inr hsees⟩

theorem remembers_run (h : Remembers d path w) (hrun : run (World.step d) w history = some w') :
    Remembers d path w' := by
  refine run_invariant (fun w iteration w' h hstep => ?_) h hrun
  obtain ⟨rfl, -⟩ | ⟨hw', -⟩ := step_cases h hstep
  · exact h
  · exact hw'

/-- The file system of the last load is the first one, or that of an iteration. -/
theorem loaded_step {iteration : Snapshot σ × Bool} (hstep : w.step d iteration = some w') :
    w'.loaded = w.loaded ∨ w'.loaded = iteration.1 := by
  unfold World.step at hstep
  split at hstep
  · exact .inr (some.inj hstep ▸ rfl)
  · exact .inl (some.inj hstep ▸ rfl)

theorem loaded_mem_run (hrun : run (World.step d) w history = some w') :
    w'.loaded ∈ w.loaded :: history.map (·.1) := by
  have hstart : w.loaded ∈ w.loaded :: ([] : List (Snapshot σ × Bool)).map (·.1) :=
    mem_cons_self ..
  refine run_invariant_prefixes (I := fun done u => u.loaded ∈ w.loaded :: done.map (·.1))
    (fun done u iteration u' hmem hstep => ?_) hstart hrun
  rw [map_append, ← cons_append]
  obtain heq | heq := loaded_step hstep
  · rw [heq]
    exact mem_append_left _ hmem
  · rw [heq]
    exact mem_append_right _ (mem_singleton_self _)

/-! Which files decide the result of a load. -/

/-- The path from which the config is loaded. -/
def loadedPath (fs : Snapshot σ) : ConfigPath → Option Path
  | .explicit path => some path
  | .regular userPath systemPath =>
    if (fs.find userPath).isSome then some userPath
    else if (fs.find systemPath).isSome then some systemPath else none

/-- A path leads to an entry at a place. -/
theorem propsFromPath_eq_some {file : Path} {props : Props} (h : fs.propsFromPath file = some props) :
    ∃ entry, fs.entries props.canonical = some entry ∧ entry.mtime = props.mtime ∧
      fs.find file = some entry.contents := by
  obtain ⟨canonical, hcanonical, h⟩ := of_bind h
  obtain ⟨entry, hentry, rfl⟩ := of_bind_some h
  refine ⟨entry, hentry, rfl, ?_⟩
  unfold Snapshot.find
  rw [hcanonical]
  dsimp only [some_bind]
  rw [hentry]
  rfl

theorem propsFromPath_eq_none {file : Path} :
    fs.propsFromPath file = none ↔ fs.find file = none := by
  unfold Snapshot.find Snapshot.propsFromPath
  cases fs.canonicalize file with
  | none => exact iff_of_true rfl rfl
  | some canonical =>
    dsimp only [some_bind]
    cases fs.entries canonical with
    | none => exact iff_of_true rfl rfl
    | some entry => exact iff_of_false nofun nofun

theorem isSome_propsFromPath {file : Path} :
    (fs.propsFromPath file).isSome = true ↔ (fs.find file).isSome = true := by
  rw [isSome_iff_ne_none, isSome_iff_ne_none, ne_eq, propsFromPath_eq_none]

theorem find_eq_of_props {fs' : Snapshot σ} {file file' : Path} (hagree : fs.Agree fs')
    (h : fs'.propsFromPath file' = fs.propsFromPath file) : fs'.find file' = fs.find file := by
  cases hprops : fs.propsFromPath file with
  | none => rw [propsFromPath_eq_none.mp hprops, propsFromPath_eq_none.mp (h.trans hprops)]
  | some props =>
    obtain ⟨entry, hentry, hmtime, hfind⟩ := propsFromPath_eq_some hprops
    obtain ⟨entry', hentry', hmtime', hfind'⟩ := propsFromPath_eq_some (h.trans hprops)
    rw [hfind, hfind', hagree _ _ _ hentry hentry' (hmtime.trans hmtime'.symm)]

/-- The main file is looked for here. -/
def LooksFor (f : Path → Found σ) (file : Path) : ConfigPath → Prop
  | .explicit path => file = path
  | .regular userPath systemPath =>
    file = userPath ∨ (f userPath).isSome = false ∧ file = systemPath

/-- A load asks for the main file, where it has to look for it, and for the includes. -/
theorem mem_asked_load {f : Path → Found σ} {file : Path} : file ∈ (path.load d).asked f ↔
    LooksFor f file path ∨ file ∈ ((path.load d).eval f).includes := by
  cases path with
  | explicit main =>
    rw [ConfigPath.load, asked_loadFile]
    exact mem_cons
  | regular userPath systemPath =>
    unfold ConfigPath.load LooksFor
    rw [asked_ifExists, asked_ifExists, eval_ifExists, eval_ifExists, mem_cons]
    by_cases huser : (f userPath).isSome = true
    · have hnone : ¬ (f userPath).isSome = false := by rw [huser]; exact nofun
      rw [if_pos huser, if_pos huser, asked_loadFile, mem_cons]
      tauto
    · have hnone : (f userPath).isSome = false := Bool.eq_false_iff.mpr huser
      rw [if_neg huser, if_neg huser, mem_cons]
      by_cases hsystem : (f systemPath).isSome = true
      · rw [if_pos hsystem, if_pos hsystem, asked_loadFile, mem_cons]
        tauto
      · rw [if_neg hsystem, if_neg hsystem]
        have hincludes : file ∉ ((pure (.fromErr .noConfigFile) :
            Reader σ (Load.ConfigParseResult γ)).eval f).includes := not_mem_nil
        rw [Query.asked_pure]
        simp only [not_mem_nil, or_false, hincludes]
        tauto

theorem isSome_of_loadedPath {fs' : Snapshot σ} {userPath systemPath : Path}
    (h : loadedPath fs (.regular userPath systemPath) = loadedPath fs' (.regular userPath systemPath))
    (huser : (fs.find userPath).isSome = true) : (fs'.find userPath).isSome = true := by
  by_contra hnone
  unfold loadedPath at h
  dsimp only at h
  rw [if_pos huser, if_neg hnone] at h
  split at h
  · rename_i hsystem
    rw [← some.inj h] at hsystem
    exact hnone hsystem
  · cases h

/-- Where a load looks for the main file, there is still the same. -/
theorem find_eq_of_looksFor {file : Path} (hagree : w.loaded.Agree fs)
    (hprops : fs.propsFromConfigPath path = w.loaded.propsFromConfigPath path)
    (hsame : loadedPath fs path = loadedPath w.loaded path)
    (hfile : LooksFor w.loaded.find file path) : fs.find file = w.loaded.find file := by
  cases path with
  | explicit main =>
    obtain rfl : file = main := hfile
    exact find_eq_of_props hagree hprops
  | regular userPath systemPath =>
    have hprops : (fs.propsFromPath userPath).or (fs.propsFromPath systemPath) =
      (w.loaded.propsFromPath userPath).or (w.loaded.propsFromPath systemPath) := hprops
    by_cases huser : (w.loaded.find userPath).isSome = true
    · obtain rfl | ⟨hnone, -⟩ := hfile
      · have huser' := isSome_of_loadedPath hsame.symm huser
        have hsome := isSome_propsFromPath.mpr huser
        have hsome' := isSome_propsFromPath.mpr huser'
        rw [or_of_isSome hsome, or_of_isSome hsome'] at hprops
        exact find_eq_of_props hagree hprops
      · rw [huser] at hnone
        cases hnone
    · have hnone : w.loaded.find userPath = none := by simpa using huser
      have hnone' : fs.find userPath = none := by
        by_contra hsome
        exact huser (isSome_of_loadedPath hsame (isSome_iff_ne_none.mpr hsome))
      rw [propsFromPath_eq_none.mpr hnone, propsFromPath_eq_none.mpr hnone', none_or,
        none_or] at hprops
      obtain rfl | ⟨-, rfl⟩ := hfile
      · rw [hnone, hnone']
      · exact find_eq_of_props hagree hprops

/-- If the watcher sees no change, and the main file is still found under the same path, a load would
give the same. -/
theorem process_eq_of_seesNoChange (hagree : w.loaded.Agree fs) (hsees : SeesNoChange d path w fs)
    (hsame : loadedPath fs path = loadedPath w.loaded path) :
    WatcherInner.process d path fs = WatcherInner.process d path w.loaded := by
  have hfind : ∀ file ∈ (path.load d).asked w.loaded.find, fs.find file = w.loaded.find file := by
    intro file hfile
    obtain hmain | hinclude := mem_asked_load.mp hfile
    · exact find_eq_of_looksFor hagree hsees.1 hsame hmain
    · exact find_eq_of_props hagree (hsees.2 file hinclude)
  unfold WatcherInner.process
  rw [(Query.eval_congr hfind).1]

/-- If the files that the last load asked for are as they were, the watcher sees no change. -/
theorem seesNoChange_of_asked
    (h : ∀ file ∈ (path.load d).asked w.loaded.find,
      fs.propsFromPath file = w.loaded.propsFromPath file) : SeesNoChange d path w fs := by
  refine ⟨?_, fun file hfile => h file (mem_asked_load.mpr (.inr hfile))⟩
  have hmain (file : Path) (hfile : LooksFor w.loaded.find file path) :=
    h file (mem_asked_load.mpr (.inl hfile))
  cases path with
  | explicit main => exact hmain main rfl
  | regular userPath systemPath =>
    unfold Snapshot.propsFromConfigPath
    dsimp only
    rw [hmain userPath (.inl rfl)]
    cases huser : w.loaded.propsFromPath userPath with
    | some props => rfl
    | none =>
      have hnone : (w.loaded.find userPath).isSome = false := by
        rw [propsFromPath_eq_none.mp huser]
        rfl
      rw [hmain systemPath (.inr ⟨hnone, rfl⟩)]

/-- Without a request, and with nothing to see, the main file is under the path of the last load. -/
def SamePath (d : Decoder σ κ ρ γ) (path : ConfigPath) (w : World σ γ) (fs : Snapshot σ)
    (requested : Bool) : Prop :=
  requested = false → SeesNoChange d path w fs → loadedPath fs path = loadedPath w.loaded path

/-- Along any history the watcher keeps up with the files, unless the main file changes its path
without being seen. -/
theorem watcher_tracks_files (d : Decoder σ κ ρ γ) (path : ConfigPath)
    (hrun : run (World.step d) (World.start d path start) history = some w)
    (hstep : w.step d (fs, requested) = some w')
    (hagree : ∀ earlier ∈ start :: history.map (·.1), earlier.Agree fs) :
    ((fs.propsFromConfigPath path).isSome → SamePath d path w fs requested →
      w'.config = WatcherInner.process d path fs) ∧
    (requested = false → (∀ file ∈ (path.load d).asked w.loaded.find,
        fs.propsFromPath file = w.loaded.propsFromPath file) →
      (w.inner.iterate d fs requested).2 = none) := by
  have hremembers := remembers_run (remembers_start d path start) hrun
  have hloaded := hagree _ (loaded_mem_run hrun)
  constructor
  · intro hexists hsame
    obtain ⟨rfl, -, hquiet⟩ | ⟨hw', rfl, -⟩ := step_cases hremembers hstep
    · obtain hnone | ⟨hrequested, hsees⟩ := hquiet
      · simp [hnone] at hexists
      · rw [hremembers.config,
          process_eq_of_seesNoChange hloaded hsees (hsame hrequested hsees)]
    · exact hw'.config
  · intro hrequested hasked
    obtain ⟨-, hquiet, -⟩ | ⟨-, -, hloads⟩ := step_cases hremembers hstep
    · exact hquiet
    · obtain htrue | hsees := hloads
      · simp [hrequested] at htrue
      · exact absurd (seesNoChange_of_asked hasked) hsees

/-! A system config that includes its colors, with or without a link to it in the home directory. -/

/-- The sections do not matter. -/
def noSections : Decoder Unit Unit Unit Unit :=
  ⟨(), fun _ _ _ => ((), [], .ok ()), (), fun _ _ _ => ()⟩

def homeFile (name : String) : Path := ⟨true, [.normal "home" true, .normal name true]⟩

def systemFile (name : String) : Path := ⟨true, [.normal "etc" true, .normal name true]⟩

def linkedConfig : ConfigPath := .regular (homeFile "config.kdl") (systemFile "config.kdl")

/-- The colors are in the home directory only. -/
def linkedSnapshot (link colors : Bool) : Snapshot Unit where
  canonicalize path :=
    if path = homeFile "config.kdl" then if link then some (systemFile "config.kdl") else none
    else some path
  entries place :=
    if place = systemFile "config.kdl" then
      some ⟨0, some (some [.includeFile (.ok ⟨false, [.normal "colors.kdl" true]⟩) []])⟩
    else if place = homeFile "colors.kdl" ∧ colors then some ⟨0, some (some [])⟩ else none

theorem agree_linkedSnapshot (link colors link' colors' : Bool) :
    (linkedSnapshot link colors).Agree (linkedSnapshot link' colors') := by
  intro place entry entry' h h' _
  unfold linkedSnapshot at h h'
  dsimp only at h h'
  split at h
  · rename_i hplace
    rw [if_pos hplace] at h'
    rw [← some.inj h, ← some.inj h']
  · rename_i hplace
    rw [if_neg hplace] at h'
    split at h
    · split at h'
      · rw [← some.inj h, ← some.inj h']
      · cases h'
    · cases h

theorem exists_step (d : Decoder σ κ ρ γ) (w : World σ γ) (iteration : Snapshot σ × Bool) :
    ∃ w', w.step d iteration = some w' := by
  unfold World.step
  split
  · exact ⟨_, rfl⟩
  · exact ⟨_, rfl⟩

/-- The colors are removed, and the config that includes them is loaded again. -/
theorem watcher_tracks_files_removed : ∃ w',
    (World.start noSections linkedConfig (linkedSnapshot true true)).step noSections
      (linkedSnapshot true false, false) = some w' ∧
    w'.config = WatcherInner.process noSections linkedConfig (linkedSnapshot true false) := by
  obtain ⟨w', hw'⟩ := exists_step noSections
    (World.start noSections linkedConfig (linkedSnapshot true true))
    (linkedSnapshot true false, false)
  have hexists : ((linkedSnapshot true false).propsFromConfigPath linkedConfig).isSome = true := by
    decide +kernel
  have hpath : loadedPath (linkedSnapshot true false) linkedConfig =
      loadedPath (linkedSnapshot true true) linkedConfig := by decide +kernel
  have hrun : run (World.step noSections)
      (World.start noSections linkedConfig (linkedSnapshot true true)) [] = some _ := rfl
  refine ⟨w', hw', (watcher_tracks_files noSections linkedConfig hrun hw' ?_).1 hexists
    fun _ _ => hpath⟩
  intro earlier hearlier
  obtain rfl := mem_singleton.mp hearlier
  exact agree_linkedSnapshot _ _ _ _

/-- The link is removed: the main file has the same props, but its include is now looked for next to
the system config. -/
theorem removed_link_unseen : ∃ w',
    (World.start noSections linkedConfig (linkedSnapshot true true)).step noSections
      (linkedSnapshot false true, false) = some w' ∧
    (linkedSnapshot true true).Agree (linkedSnapshot false true) ∧
    ((linkedSnapshot false true).propsFromConfigPath linkedConfig).isSome = true ∧
    w'.config ≠ WatcherInner.process noSections linkedConfig (linkedSnapshot false true) := by
  obtain ⟨w', hw'⟩ := exists_step noSections
    (World.start noSections linkedConfig (linkedSnapshot true true))
    (linkedSnapshot false true, false)
  refine ⟨w', hw', agree_linkedSnapshot _ _ _ _, by decide +kernel, fun heq => ?_⟩
  have hstale : ((World.start noSections linkedConfig (linkedSnapshot true true)).step noSections
      (linkedSnapshot false true, false)).any (·.config.isOk) = true := by decide +kernel
  have hcurrent : (WatcherInner.process noSections linkedConfig (linkedSnapshot false true)).isOk =
      false := by decide +kernel
  rw [hw', any_some, heq, hcurrent] at hstale
  cases hstale

end Macniri.ConfigFiles.Watcher

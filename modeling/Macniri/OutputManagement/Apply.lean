import Macniri.OutputManagement.Run

/-! Applying a configuration: which outputs keep their config. -/
namespace Macniri.OutputManagement

open Option List HashMap

open Layout (OutputName)

namespace Client

/-- Configuration objects and their heads are numbered below the next object. -/
structure ObjectsInv (c : Client) : Prop where
  confs : ∀ x, (c.confs.get x).isSome → x < c.nextObject
  confHead : ∀ ch, (c.confHeads.get ch).isSome → ch < c.nextObject
  conf : ∀ ch o x, c.confHeads.get ch = some (.ok o x) → x < c.nextObject

variable {c c' : Client} {x : ℕ}

theorem objectsInv_initial : Client.initial.ObjectsInv := by
  refine ⟨fun x h => ?_, fun ch h => ?_, fun ch o x h => ?_⟩
  · simp [Client.initial] at h
  · simp [Client.initial] at h
  · simp [Client.initial] at h

theorem ObjectsInv.keep (h : c.ObjectsInv) (hconfs : ∀ x s, c'.confs.get x = some s → c.confs.get x = some s)
    (hheads : ∀ ch s, c'.confHeads.get ch = some s → c.confHeads.get ch = some s)
    (hnext : c.nextObject ≤ c'.nextObject) : c'.ObjectsInv := by
  refine ⟨fun x hx => ?_, fun ch hch => ?_, fun ch o x hch => ?_⟩
  · obtain ⟨s, hs⟩ := isSome_iff_exists.mp hx
    exact Nat.lt_of_lt_of_le (h.confs x (by simp [hconfs x s hs])) hnext
  · obtain ⟨s, hs⟩ := isSome_iff_exists.mp hch
    exact Nat.lt_of_lt_of_le (h.confHead ch (by simp [hheads ch s hs])) hnext
  · exact Nat.lt_of_lt_of_le (h.conf ch o x (hheads ch _ hch)) hnext

theorem ObjectsInv.same (h : c.ObjectsInv) (hsame : c.Same c') : c'.ObjectsInv :=
  h.keep (fun _ _ hs => hsame.confs ▸ hs) (fun _ _ hs => hsame.confHeads ▸ hs) hsame.nextObject

theorem conf_setConf_self {state state' : OutputConfigurationState} (h : c.conf x = some state) :
    (c.setConf x state').conf x = some state' := by
  cases hd : c.data with
  | none => simp [conf, hd] at h
  | some d => simp [conf, setConf, hd]

theorem conf_setConf_of_ne {state : OutputConfigurationState} {y : ℕ} (h : y ≠ x) :
    (c.setConf x state).conf y = c.conf y := by
  cases hd : c.data with
  | none => simp [conf, setConf, hd]
  | some d => simp [conf, setConf, hd, h]

theorem ObjectsInv.postError (h : c.ObjectsInv) {object : ℕ} {code : ErrorCode} {message : String} :
    (c.postError object code message).ObjectsInv :=
  h.keep (fun _ _ hs => by cases hs) (fun _ _ hs => by cases hs) (Nat.le_refl _)

theorem ObjectsInv.initConfHead (h : c.ObjectsInv) {state : OutputConfigurationHeadState}
    (hstate : ∀ o x, state = .ok o x → x < c.nextObject) : (c.initConfHead state).ObjectsInv := by
  have hget : ∀ ch, (c.initConfHead state).confHeads.get ch =
      if ch = c.nextObject then some state else c.confHeads.get ch := fun ch => get_insert
  refine ⟨fun x hx => Nat.lt_succ_of_lt (h.confs x hx), fun ch hch => ?_, fun ch o x hch => ?_⟩
  · rw [hget] at hch
    split_ifs at hch with heq
    · exact heq ▸ Nat.lt_succ_self _
    · exact Nat.lt_succ_of_lt (h.confHead ch hch)
  · rw [hget] at hch
    split_ifs at hch with heq
    · exact Nat.lt_succ_of_lt (hstate o x (some.inj hch))
    · exact Nat.lt_succ_of_lt (h.conf ch o x hch)

end Client

namespace OutputManagementManagerState

variable {st st' : OutputManagementManagerState} {ord : IterOrder} {client : ℕ} {c : Client}

def ObjectsInv (st : OutputManagementManagerState) : Prop :=
  ∀ client, (st.clients client).ObjectsInv

theorem ObjectsInv.setClient (h : st.ObjectsInv) (hc : c.ObjectsInv) :
    (st.setClient client c).ObjectsInv := by
  intro k
  by_cases hk : k = client
  · subst hk
    simpa [OutputManagementManagerState.setClient] using hc
  · simpa [OutputManagementManagerState.setClient, hk] using h k

theorem objectsInv_finishConfiguration {x : ℕ} {outdated : Bool} (hc : c.ObjectsInv) :
    (finishConfiguration ord c x outdated).1.ObjectsInv := by
  unfold finishConfiguration
  split
  · exact hc.keep (fun _ _ hs => hs) (fun _ _ hs => hs) (Nat.le_refl _)
  · split
    · exact hc
    · exact hc.postError
    · dsimp only
      split <;> exact hc.keep (fun _ _ hs => hs) (fun _ _ hs => hs) (Nat.le_refl _)

theorem objectsInv_configuration {x : ℕ} {request : ConfigurationRequest} (hi : st.ObjectsInv)
    (h : st.configuration ord client x request = some st') : st'.ObjectsInv := by
  have hc := hi client
  obtain ⟨serial, hserial, h⟩ := of_bind h
  have hx : x < (st.clients client).nextObject := hc.confs x (by simp [hserial])
  have hfinish : (finishConfiguration ord (st.clients client) x (serial != st.serial)).1.ObjectsInv :=
    objectsInv_finishConfiguration hc
  have hset : ∀ state, ((st.clients client).setConf x state).ObjectsInv := fun state =>
    hc.keep (fun _ _ hs => hs) (fun _ _ hs => hs) (Nat.le_refl _)
  cases request with
  | enableHead head =>
    obtain ⟨output, -, rfl⟩ := of_bind_some h
    apply hi.setClient
    unfold enableHead
    split
    · exact hc.initConfHead (by simp)
    · exact (hc.initConfHead (by simp)).postError
    · refine (hset _).initConfHead fun o y heq => ?_
      obtain ⟨-, rfl⟩ := OutputConfigurationHeadState.ok.inj heq
      exact hx
  | disableHead head =>
    obtain ⟨output, -, rfl⟩ := of_bind_some h
    apply hi.setClient
    unfold disableHead
    split
    · exact hc
    · exact hc.postError
    · exact hset _
  | apply =>
    dsimp only at h
    split at h
    · rename_i c' hf
      obtain rfl := some.inj h
      rw [hf] at hfinish
      exact hi.setClient hfinish
    · rename_i c' config hf
      obtain rfl := some.inj h
      rw [hf] at hfinish
      have hi' : ObjectsInv { st with currentConfig := config } := hi
      exact hi'.setClient (hfinish.keep (fun _ _ hs => hs) (fun _ _ hs => hs) (Nat.le_refl _))
  | test =>
    dsimp only at h
    split at h
    · rename_i c' hf
      obtain rfl := some.inj h
      rw [hf] at hfinish
      exact hi.setClient hfinish
    · rename_i c' config hf
      obtain rfl := some.inj h
      rw [hf] at hfinish
      exact hi.setClient (hfinish.keep (fun _ _ hs => hs) (fun _ _ hs => hs) (Nat.le_refl _))
  | destroy =>
    obtain rfl := some.inj h
    refine hi.setClient (hc.keep (fun y s hs => ?_) (fun _ _ hs => hs) (Nat.le_refl _))
    rw [get_remove] at hs
    split_ifs at hs
    exact hs

theorem objectsInv_step {action : IterOrder × Action} (hi : st.ObjectsInv)
    (h : st.step action = some st') : st'.ObjectsInv := by
  obtain ⟨ord, action⟩ := action
  cases action with
  | notifyChanges newState =>
    have h : st.notifyChanges ord newState = some st' := h
    unfold notifyChanges at h
    dsimp only at h
    have hclients : ∀ k, (st.notifyClient ord newState (st.clients k)).ObjectsInv := fun k =>
      (hi k).same (Client.same_notifyClient ..)
    split_ifs at h <;> obtain rfl := some.inj h
    · intro k
      dsimp only [Client.notifyDone]
      split
      · exact hclients k
      · exact (hclients k).keep (fun _ _ hs => hs) (fun _ _ hs => hs) (Nat.le_refl _)
    · exact hclients
  | configChanged config =>
    obtain rfl := some.inj h
    exact hi
  | bind client version =>
    have h : st.bind ord client version = some st' := h
    unfold bind at h
    dsimp only at h
    split at h
    · obtain rfl := some.inj h
      obtain ⟨hsame, -⟩ := Client.same_sendNewHeads (ord.iter st.currentState)
        { st.clients client with
          managers := (st.clients client).managers.insert (st.clients client).nextObject false
          nextObject := (st.clients client).nextObject + 1 }
        ⟨∅, ∅, ⟨(st.clients client).nextObject, version⟩⟩
      exact hi.setClient ((hi client).keep (fun _ _ hs => hsame.confs ▸ hs)
        (fun _ _ hs => hsame.confHeads ▸ hs) (Nat.le_trans (Nat.le_succ _) hsame.nextObject))
    · cases h
  | createConfiguration client manager serial =>
    obtain ⟨-, -, rfl⟩ := of_bind_some h
    have hcreate : Client.ObjectsInv { st.clients client with
        confs := (st.clients client).confs.insert (st.clients client).nextObject serial
        nextObject := (st.clients client).nextObject + 1 } := by
      refine ⟨fun x hx => ?_, fun ch hch => Nat.lt_succ_of_lt ((hi client).confHead ch hch),
        fun ch o x hch => Nat.lt_succ_of_lt ((hi client).conf ch o x hch)⟩
      rw [get_insert] at hx
      split_ifs at hx with heq
      · exact heq ▸ Nat.lt_succ_self _
      · exact Nat.lt_succ_of_lt ((hi client).confs x hx)
    apply hi.setClient
    dsimp only
    repeat' split
    all_goals first
      | exact hcreate
      | exact hcreate.keep (fun _ _ hs => hs) (fun _ _ hs => hs) (Nat.le_refl _)
  | stop client manager =>
    obtain ⟨-, -, rfl⟩ := of_bind_some h
    apply hi.setClient
    dsimp only
    split <;> exact (hi client).keep (fun _ _ hs => hs) (fun _ _ hs => hs) (Nat.le_refl _)
  | managerDestroyed client manager =>
    obtain ⟨-, -, rfl⟩ := of_bind_some h
    exact hi.setClient ((hi client).keep (fun _ _ hs => hs) (fun _ _ hs => hs) (Nat.le_refl _))
  | headDestroyed client head =>
    obtain ⟨output, -, rfl⟩ := of_bind_some h
    exact hi.setClient ((hi client).keep (fun _ _ hs => hs) (fun _ _ hs => hs) (Nat.le_refl _))
  | configuration client conf request => exact objectsInv_configuration hi h
  | configurationHead client confHead request =>
    obtain ⟨state, -, h⟩ := of_bind h
    cases state with
    | cancelled =>
      obtain rfl := some.inj h
      exact hi
    | ok output conf =>
      obtain rfl := some.inj h
      apply hi.setClient
      unfold configureProperty
      repeat' split
      all_goals first
        | exact hi client
        | exact (hi client).postError
        | exact (hi client).keep (fun _ _ hs => hs) (fun _ _ hs => hs) (Nat.le_refl _)
  | disconnected client =>
    have h : (if (st.clients client).connected then
      some (st.setClient client (st.clients client).disconnect) else none) = some st' := h
    split at h
    · obtain rfl := some.inj h
      exact hi.setClient ((hi client).keep (fun _ _ hs => by cases hs) (fun _ _ hs => by cases hs)
        (Nat.le_refl _))
    · cases h

theorem objectsInv_run {config : List OutputConfig} {actions : List (IterOrder × Action)}
    (hrun : run step (new config) actions = some st) : st.ObjectsInv :=
  run_invariant (fun _ _ _ hs => objectsInv_step hs) (fun _ => Client.objectsInv_initial) hrun

/-! A sequence of requests on one configuration object. -/

inductive Request where
  | enableHead (head : ℕ)
  | disableHead (head : ℕ)
  | set (confHead : ℕ) (request : ConfigurationHeadRequest)
  deriving DecidableEq

def Request.action (client x : ℕ) : Request → Action
  | .enableHead head => .configuration client x (.enableHead head)
  | .disableHead head => .configuration client x (.disableHead head)
  | .set confHead request => .configurationHead client confHead request

def requestStep (ord : IterOrder) (client x : ℕ) (st : OutputManagementManagerState)
    (request : Request) : Option OutputManagementManagerState :=
  st.step (ord, request.action client x)

end OutputManagementManagerState

namespace ConfigurationHeadRequest

def setsMode : ConfigurationHeadRequest → Bool
  | .setMode _ | .setCustomMode _ _ _ => true
  | _ => false

def setsPosition : ConfigurationHeadRequest → Bool
  | .setPosition _ _ => true
  | _ => false

def setsTransform : ConfigurationHeadRequest → Bool
  | .setTransform _ => true
  | _ => false

def setsScale : ConfigurationHeadRequest → Bool
  | .setScale _ => true
  | _ => false

def setsAdaptiveSync : ConfigurationHeadRequest → Bool
  | .setAdaptiveSync _ => true
  | _ => false

end ConfigurationHeadRequest

/-- The entry is enabled, and differs from an older one at most in the properties that were set; the
mode of an output is its `mode` and its `modeline`. -/
structure DiffersOnly (set : Set ConfigurationHeadRequest) (old new : OutputConfig) : Prop where
  off : new.off = false
  name : new.name = old.name
  scale : (∀ r ∈ set, r.setsScale = false) → new.scale = old.scale
  transform : (∀ r ∈ set, r.setsTransform = false) → new.transform = old.transform
  position : (∀ r ∈ set, r.setsPosition = false) → new.position = old.position
  mode : (∀ r ∈ set, r.setsMode = false) → new.mode = old.mode ∧ new.modeline = old.modeline
  adaptiveSync : (∀ r ∈ set, r.setsAdaptiveSync = false) →
    new.variableRefreshRate = old.variableRefreshRate
  focusAtStartup : new.focusAtStartup = old.focusAtStartup
  backgroundColor : new.backgroundColor = old.backgroundColor
  backdropColor : new.backdropColor = old.backdropColor
  hotCorners : new.hotCorners = old.hotCorners
  layout : new.layout = old.layout

section DiffersOnly

variable {set set' : Set ConfigurationHeadRequest} {old entry entry' : OutputConfig}
variable {modes : Option (List ℕ)} {output : Option Output} {request : ConfigurationHeadRequest}

theorem DiffersOnly.mono (h : DiffersOnly set old entry) (hsub : set ⊆ set') :
    DiffersOnly set' old entry :=
  { h with
    scale := fun hr => h.scale fun r hmem => hr r (hsub hmem)
    transform := fun hr => h.transform fun r hmem => hr r (hsub hmem)
    position := fun hr => h.position fun r hmem => hr r (hsub hmem)
    mode := fun hr => h.mode fun r hmem => hr r (hsub hmem)
    adaptiveSync := fun hr => h.adaptiveSync fun r hmem => hr r (hsub hmem) }

/-- A property that is set changes only itself. -/
theorem DiffersOnly.setProperty (h : DiffersOnly set old entry) (hsub : set ⊆ set')
    (hmem : request ∈ set') (hset : setProperty modes output entry request = .ok entry') :
    DiffersOnly set' old entry' := by
  have h' := h.mono hsub
  have hmode : ∀ custom width height refresh, request.setsMode = true →
      DiffersOnly set' old (entry.setMode custom width height refresh) := by
    intro custom width height refresh hsets
    exact { h' with mode := fun hr => by simp [hr request hmem] at hsets }
  cases request with
  | setMode mode =>
    simp only [OutputManagement.setProperty] at hset
    split at hset
    · cases hset
    · split at hset
      · obtain rfl := Except.ok.inj hset
        exact h'
      · obtain rfl := Except.ok.inj hset
        exact hmode _ _ _ _ rfl
  | setCustomMode width height refresh =>
    simp only [OutputManagement.setProperty] at hset
    split at hset <;> obtain rfl := Except.ok.inj hset
    · exact hmode _ _ _ _ rfl
    · exact h'
  | setPosition x y =>
    obtain rfl := Except.ok.inj hset
    exact { h' with position := fun hr => by simpa [ConfigurationHeadRequest.setsPosition] using hr _ hmem }
  | setTransform transform =>
    cases transform with
    | none => cases hset
    | some transform =>
      obtain rfl := Except.ok.inj hset
      exact { h' with
        transform := fun hr => by simpa [ConfigurationHeadRequest.setsTransform] using hr _ hmem }
  | setScale scale =>
    simp only [OutputManagement.setProperty] at hset
    split at hset
    · cases hset
    · obtain rfl := Except.ok.inj hset
      exact { h' with scale := fun hr => by simpa [ConfigurationHeadRequest.setsScale] using hr _ hmem }
  | setAdaptiveSync state =>
    cases state with
    | none => cases hset
    | some enabled =>
      obtain rfl := Except.ok.inj hset
      exact { h' with
        adaptiveSync := fun hr => by
          simpa [ConfigurationHeadRequest.setsAdaptiveSync] using hr _ hmem }

end DiffersOnly

/-- The entry that an output has in the config, or the one that a section for it starts from. -/
def previous (config : List OutputConfig) (output : Output) : OutputConfig :=
  (find config output.outputName).getD
    { OutputConfig.default with name := output.outputName.formatMakeModelSerialOrConnector }

theorem differsOnly_configFor {config : List OutputConfig} {output : Output}
    {set : Set ConfigurationHeadRequest} :
    DiffersOnly set (previous config output) (configFor config output false) :=
  ⟨rfl, rfl, fun _ => rfl, fun _ => rfl, fun _ => rfl, fun _ => ⟨rfl, rfl⟩, fun _ => rfl, rfl, rfl, rfl,
    rfl, rfl⟩

namespace OutputManagementManagerState

variable {st₀ st st' : OutputManagementManagerState} {ord : IterOrder} {client x o : ℕ}
variable {requests : List Request} {request : Request} {config : HashMap ℕ OutputConfig}

/-- A request for a head of an output that is there. -/
def Asked (st : OutputManagementManagerState) (client : ℕ) (requests : List Request)
    (request : ℕ → Request) (o : ℕ) : Prop :=
  ∃ h, request h ∈ requests ∧ (st.clients client).heads.get h = some o ∧ (st.currentState.get o).isSome

def Enables (st : OutputManagementManagerState) (client : ℕ) (requests : List Request) (o : ℕ) : Prop :=
  st.Asked client requests .enableHead o

def Disables (st : OutputManagementManagerState) (client : ℕ) (requests : List Request) (o : ℕ) : Prop :=
  st.Asked client requests .disableHead o

/-- The properties of an output that are set, through the heads of the configuration `x`. -/
def properties (st : OutputManagementManagerState) (client x : ℕ) (requests : List Request) (o : ℕ) :
    Set ConfigurationHeadRequest :=
  {r | ∃ ch, .set ch r ∈ requests ∧ (st.clients client).confHeads.get ch = some (.ok o x)}

/-- The configuration that the requests made so far amount to. -/
structure Configured (st₀ : OutputManagementManagerState) (client x : ℕ) (requests : List Request)
    (st : OutputManagementManagerState) (config : HashMap ℕ OutputConfig) : Prop where
  currentState : st.currentState = st₀.currentState
  currentConfig : st.currentConfig = st₀.currentConfig
  heads : (st.clients client).heads = (st₀.clients client).heads
  current : (st.clients client).confs.get x = some st.serial
  ongoing : (st.clients client).conf x = some (.ongoing config)
  objects : (st.clients client).ObjectsInv
  entries : ∀ o entry, config.get o = some entry → ∃ output, st₀.currentState.get o = some output ∧
    (st₀.Disables client requests o ∧ entry = configFor st₀.currentConfig output true ∨
      st₀.Enables client requests o ∧
        DiffersOnly (st.properties client x requests o) (previous st₀.currentConfig output) entry)
  asked : ∀ o, st₀.Enables client requests o ∨ st₀.Disables client requests o → (config.get o).isSome
  off : ∀ o entry, config.get o = some entry →
    (st₀.Enables client requests o → entry.off = false) ∧
      (st₀.Disables client requests o → entry.off = true)
  confHeads : ∀ ch o, (st.clients client).confHeads.get ch = some (.ok o x) →
    ∃ entry, config.get o = some entry ∧ entry.off = false
  known : ∀ ch r, .set ch r ∈ requests → ((st.clients client).confHeads.get ch).isSome

theorem Asked.concat {mk : ℕ → Request} (h : st.Asked client requests mk o) (r : Request) :
    st.Asked client (requests ++ [r]) mk o := by
  obtain ⟨head, hmem, hget⟩ := h
  exact ⟨head, by simp [hmem], hget⟩

theorem asked_concat {mk : ℕ → Request} {r : Request} (h : st.Asked client (requests ++ [r]) mk o) :
    st.Asked client requests mk o ∨
      ∃ head, r = mk head ∧ (st.clients client).heads.get head = some o ∧
        (st.currentState.get o).isSome := by
  obtain ⟨head, hmem, hget, hsome⟩ := h
  rcases mem_append.mp hmem with hmem | hmem
  · exact .inl ⟨head, hmem, hget, hsome⟩
  · exact .inr ⟨head, (mem_singleton.mp hmem).symm, hget, hsome⟩

theorem asked_of_concat {mk : ℕ → Request} {r : Request}
    (h : st.Asked client (requests ++ [r]) mk o) (hr : ∀ head, r ≠ mk head) :
    st.Asked client requests mk o := by
  obtain h | ⟨head, heq, -⟩ := asked_concat h
  · exact h
  · exact absurd heq (hr head)

/-- The heads of the configuration that were known stay so. -/
theorem properties_concat {r : Request}
    (hheads : ∀ ch state, (st.clients client).confHeads.get ch = some state →
      (st'.clients client).confHeads.get ch = some state) :
    st.properties client x requests o ⊆ st'.properties client x (requests ++ [r]) o := by
  rintro q ⟨ch, hmem, hget⟩
  exact ⟨ch, by simp [hmem], hheads ch _ hget⟩

/-- A request that says nothing new about any output. -/
theorem Configured.ignore (h : Configured st₀ client x requests st config) {c : Client}
    (hheads : c.heads = (st.clients client).heads) (hconfs : c.confs = (st.clients client).confs)
    (hongoing : c.conf x = (st.clients client).conf x) (hobjects : c.ObjectsInv)
    (hkeep : ∀ ch state, (st.clients client).confHeads.get ch = some state →
      c.confHeads.get ch = some state)
    (hnew : ∀ ch o, c.confHeads.get ch = some (.ok o x) →
      (st.clients client).confHeads.get ch = some (.ok o x))
    (hen : ∀ o, st₀.Enables client (requests ++ [request]) o → st₀.Enables client requests o)
    (hdis : ∀ o, st₀.Disables client (requests ++ [request]) o → st₀.Disables client requests o)
    (hset : ∀ ch r, request = .set ch r → (c.confHeads.get ch).isSome) :
    Configured st₀ client x (requests ++ [request]) (st.setClient client c) config := by
  have hclient : (st.setClient client c).clients client = c := by simp [setClient]
  refine ⟨h.currentState, h.currentConfig, ?_, ?_, ?_, ?_, fun o entry hget => ?_,
    fun o ho => h.asked o (ho.imp (hen o) (hdis o)), fun o entry hget => ?_, fun ch o hch => ?_,
    fun ch r hr => ?_⟩
  · rw [hclient, hheads, h.heads]
  · rw [hclient, hconfs]
    exact h.current
  · rw [hclient, hongoing, h.ongoing]
  · rwa [hclient]
  · obtain ⟨output, hout, ⟨hdis, heq⟩ | ⟨hen, hdiff⟩⟩ := h.entries o entry hget
    · exact ⟨output, hout, .inl ⟨hdis.concat _, heq⟩⟩
    · refine ⟨output, hout, .inr ⟨hen.concat _, hdiff.mono (properties_concat ?_)⟩⟩
      rw [hclient]
      exact hkeep
  · exact (h.off o entry hget).imp (fun hoff ho => hoff (hen o ho)) fun hoff ho => hoff (hdis o ho)
  · rw [hclient] at hch
    exact h.confHeads ch o (hnew ch o hch)
  · rw [hclient]
    rcases mem_append.mp hr with hr | hr
    · obtain ⟨state, hstate⟩ := isSome_iff_exists.mp (h.known ch r hr)
      simp [hkeep ch state hstate]
    · exact hset ch r (mem_singleton.mp hr).symm

/-- A request adds an output to the configuration. -/
theorem Configured.add (h : Configured st₀ client x requests st config) {c : Client} {output : Output}
    {off : Bool} (hnone : config.get o = none) (hout : st₀.currentState.get o = some output)
    (hasked : if off then st₀.Disables client (requests ++ [request]) o
      else st₀.Enables client (requests ++ [request]) o)
    (hen : ∀ o', st₀.Enables client (requests ++ [request]) o' →
      o' = o ∧ off = false ∨ st₀.Enables client requests o')
    (hdis : ∀ o', st₀.Disables client (requests ++ [request]) o' →
      o' = o ∧ off = true ∨ st₀.Disables client requests o')
    (hheads : c.heads = (st.clients client).heads) (hconfs : c.confs = (st.clients client).confs)
    (hongoing : c.conf x = some (.ongoing (config.insert o (configFor st₀.currentConfig output off))))
    (hobjects : c.ObjectsInv)
    (hkeep : ∀ ch state, (st.clients client).confHeads.get ch = some state →
      c.confHeads.get ch = some state)
    (hnew : ∀ ch o', c.confHeads.get ch = some (.ok o' x) →
      o' = o ∧ off = false ∨ (st.clients client).confHeads.get ch = some (.ok o' x))
    (hset : ∀ ch r, request ≠ .set ch r) :
    Configured st₀ client x (requests ++ [request]) (st.setClient client c)
      (config.insert o (configFor st₀.currentConfig output off)) := by
  have hclient : (st.setClient client c).clients client = c := by simp [setClient]
  have hother : ∀ o', st₀.Enables client requests o' ∨ st₀.Disables client requests o' → o' ≠ o := by
    rintro o' ho' rfl
    have := h.asked o' ho'
    simp [hnone] at this
  refine ⟨h.currentState, h.currentConfig, ?_, ?_, ?_, ?_, fun o' entry hget => ?_,
    fun o' ho' => ?_, fun o' entry hget => ?_, fun ch o' hch => ?_, fun ch r hr => ?_⟩
  · rw [hclient, hheads, h.heads]
  · rw [hclient, hconfs]
    exact h.current
  · rw [hclient, hongoing]
  · rwa [hclient]
  · rw [get_insert] at hget
    split_ifs at hget with heq
    · subst heq
      obtain rfl := some.inj hget
      refine ⟨output, hout, ?_⟩
      cases off with
      | true => exact .inl ⟨hasked, rfl⟩
      | false => exact .inr ⟨hasked, differsOnly_configFor⟩
    · obtain ⟨output', hout', ⟨hdis, heq⟩ | ⟨hen, hdiff⟩⟩ := h.entries o' entry hget
      · exact ⟨output', hout', .inl ⟨hdis.concat _, heq⟩⟩
      · refine ⟨output', hout', .inr ⟨hen.concat _, hdiff.mono (properties_concat ?_)⟩⟩
        rw [hclient]
        exact hkeep
  · rw [get_insert]
    have hold : o' = o ∨ st₀.Enables client requests o' ∨ st₀.Disables client requests o' := by
      rcases ho' with ho' | ho'
      · exact (hen o' ho').imp And.left .inl
      · exact (hdis o' ho').imp And.left .inr
    rcases hold with heq | hold
    · simp [heq]
    · split_ifs
      · rfl
      · exact h.asked o' hold
  · rw [get_insert] at hget
    split_ifs at hget with heq
    · subst heq
      obtain rfl := some.inj hget
      refine ⟨fun ho => ?_, fun ho => ?_⟩
      · rcases hen o' ho with ⟨-, rfl⟩ | hold
        · rfl
        · exact absurd rfl (hother o' (.inl hold))
      · rcases hdis o' ho with ⟨-, rfl⟩ | hold
        · rfl
        · exact absurd rfl (hother o' (.inr hold))
    · refine (h.off o' entry hget).imp (fun hoff ho => hoff ?_) fun hoff ho => hoff ?_
      · exact (hen o' ho).resolve_left fun h => heq h.1
      · exact (hdis o' ho).resolve_left fun h => heq h.1
  · rw [hclient] at hch
    rw [get_insert]
    rcases hnew ch o' hch with ⟨rfl, rfl⟩ | hold
    · exact ⟨_, if_pos rfl, rfl⟩
    · obtain ⟨entry, hentry, hoff⟩ := h.confHeads ch o' hold
      have hne : o' ≠ o := by
        rintro rfl
        rw [hnone] at hentry
        cases hentry
      exact ⟨entry, by rw [if_neg hne, hentry], hoff⟩
  · rw [hclient]
    rcases mem_append.mp hr with hr | hr
    · obtain ⟨state, hstate⟩ := isSome_iff_exists.mp (h.known ch r hr)
      simp [hkeep ch state hstate]
    · exact absurd (mem_singleton.mp hr).symm (hset ch r)

/-- A request sets a property of an output. -/
theorem Configured.change (h : Configured st₀ client x requests st config) {c : Client} {ch : ℕ}
    {r : ConfigurationHeadRequest} {entry entry' : OutputConfig} {modes : Option (List ℕ)}
    {out : Option Output} (hch : (st.clients client).confHeads.get ch = some (.ok o x))
    (hentry : config.get o = some entry) (hset : setProperty modes out entry r = .ok entry')
    (hheads : c.heads = (st.clients client).heads) (hconfs : c.confs = (st.clients client).confs)
    (hongoing : c.conf x = some (.ongoing (config.insert o entry')))
    (hobjects : c.ObjectsInv) (hkeep : c.confHeads = (st.clients client).confHeads) :
    Configured st₀ client x (requests ++ [.set ch r]) (st.setClient client c)
      (config.insert o entry') := by
  have hclient : (st.setClient client c).clients client = c := by simp [setClient]
  have hen' : ∀ o', st₀.Enables client (requests ++ [.set ch r]) o' → st₀.Enables client requests o' :=
    fun _ ho => asked_of_concat ho (by simp)
  have hdis' : ∀ o', st₀.Disables client (requests ++ [.set ch r]) o' →
      st₀.Disables client requests o' :=
    fun _ ho => asked_of_concat ho (by simp)
  have hsub : ∀ o', st.properties client x requests o' ⊆
      (st.setClient client c).properties client x (requests ++ [.set ch r]) o' := by
    intro o'
    apply properties_concat
    rw [hclient, hkeep]
    exact fun _ _ hs => hs
  have hdiffers : ∀ set old, st.properties client x requests o ⊆ set → r ∈ set →
      DiffersOnly (st.properties client x requests o) old entry → DiffersOnly set old entry' :=
    fun set old hsub hmem hdiff => hdiff.setProperty hsub hmem hset
  have hoff : entry.off = false := by
    obtain ⟨e, he, hoff⟩ := h.confHeads ch o hch
    rw [hentry] at he
    exact some.inj he ▸ hoff
  obtain ⟨output, hout, hcase⟩ := h.entries o entry hentry
  obtain ⟨hen, hdiff⟩ : st₀.Enables client requests o ∧
      DiffersOnly (st.properties client x requests o) (previous st₀.currentConfig output) entry := by
    rcases hcase with ⟨-, heq⟩ | hcase
    · rw [heq] at hoff
      cases hoff
    · exact hcase
  have hnew : DiffersOnly ((st.setClient client c).properties client x (requests ++ [.set ch r]) o)
      (previous st₀.currentConfig output) entry' := by
    refine hdiffers _ _ (hsub o) ⟨ch, by simp, ?_⟩ hdiff
    rw [hclient, hkeep]
    exact hch
  refine ⟨h.currentState, h.currentConfig, ?_, ?_, ?_, ?_, fun o' e hget => ?_,
    fun o' ho' => ?_, fun o' e hget => ?_, fun ch' o' hch' => ?_, fun ch' r' hr => ?_⟩
  · rw [hclient, hheads, h.heads]
  · rw [hclient, hconfs]
    exact h.current
  · rw [hclient, hongoing]
  · rwa [hclient]
  · rw [get_insert] at hget
    split_ifs at hget with heq
    · subst heq
      obtain rfl := some.inj hget
      exact ⟨output, hout, .inr ⟨hen.concat _, hnew⟩⟩
    · obtain ⟨output', hout', ⟨hdis, heq⟩ | ⟨hen', hdiff'⟩⟩ := h.entries o' e hget
      · exact ⟨output', hout', .inl ⟨hdis.concat _, heq⟩⟩
      · exact ⟨output', hout', .inr ⟨hen'.concat _, hdiff'.mono (hsub o')⟩⟩
  · rw [get_insert]
    split_ifs
    · rfl
    · exact h.asked o' (ho'.imp (hen' o') (hdis' o'))
  · rw [get_insert] at hget
    split_ifs at hget with heq
    · subst heq
      obtain rfl := some.inj hget
      refine ⟨fun _ => hnew.off, fun ho => ?_⟩
      rw [(h.off o' entry hentry).2 (hdis' o' ho)] at hoff
      cases hoff
    · exact (h.off o' e hget).imp (fun hoff ho => hoff (hen' o' ho)) fun hoff ho => hoff (hdis' o' ho)
  · rw [hclient, hkeep] at hch'
    rw [get_insert]
    split_ifs with heq
    · exact ⟨entry', rfl, hnew.off⟩
    · exact h.confHeads ch' o' hch'
  · rw [hclient, hkeep]
    rcases mem_append.mp hr with hr | hr
    · exact h.known ch' r' hr
    · obtain ⟨rfl, rfl⟩ := Request.set.inj (mem_singleton.mp hr)
      simp [hch]

theorem configureHead_eq (h : Configured st₀ client x requests st config) {off : Bool} :
    st.configureHead (st.clients client) x false o off =
      match st₀.currentState.get o with
      | none => .ignored
      | some output =>
        match config.get o with
        | some _ => .error .alreadyConfiguredHead "head has been already configured"
        | none => .added (config.insert o (configFor st₀.currentConfig output off)) := by
  cases hout : st₀.currentState.get o with
  | none => simp [configureHead, h.ongoing, h.currentState, hout]
  | some output =>
    cases hget : config.get o <;>
      simp [configureHead, h.ongoing, h.currentState, h.currentConfig, hout, hget]

/-- A client that was disconnected has no objects. -/
def Gone (c : Client) : Prop := c.connected = false ∧ c.confs = ∅ ∧ c.confHeads = ∅

theorem gone_postError {c : Client} {object : ℕ} {code : ErrorCode} {message : String} :
    Gone (c.postError object code message) := ⟨rfl, rfl, rfl⟩

theorem configured_enableHead (h : Configured st₀ client x requests st config) {head : ℕ}
    (hstep : st.configuration ord client x (.enableHead head) = some st') :
    Gone (st'.clients client) ∨
      ∃ config', Configured st₀ client x (requests ++ [.enableHead head]) st' config' := by
  have hx : x < (st.clients client).nextObject := h.objects.confs x (by simp [h.current])
  obtain ⟨serial, hserial, hstep⟩ := of_bind hstep
  obtain ⟨o, ho, hstep⟩ := of_bind hstep
  obtain rfl := some.inj (hserial.symm.trans h.current)
  obtain rfl := some.inj hstep
  rw [bne_self_eq_false, configureHead_eq h]
  -- A new head of a configuration does not take the place of another one.
  have hkeep : ∀ state ch state', (st.clients client).confHeads.get ch = some state' →
      ((st.clients client).confHeads.insert (st.clients client).nextObject state).get ch =
        some state' := by
    intro state ch state' hch
    have hlt := h.objects.confHead ch (by simp [hch])
    rw [get_insert, if_neg (by omega), hch]
  have hen : ∀ o', st₀.Enables client (requests ++ [.enableHead head]) o' →
      o' = o ∧ (st₀.currentState.get o).isSome ∨ st₀.Enables client requests o' := by
    intro o' ho'
    rcases asked_concat ho' with ho' | ⟨head', heq, hget, hsome⟩
    · exact .inr ho'
    · obtain rfl := Request.enableHead.inj heq
      rw [← h.heads, ho] at hget
      obtain rfl := some.inj hget
      exact .inl ⟨rfl, hsome⟩
  have hdis : ∀ o', st₀.Disables client (requests ++ [.enableHead head]) o' →
      st₀.Disables client requests o' :=
    fun _ ho' => asked_of_concat ho' (by simp)
  cases hout : st₀.currentState.get o with
  | none =>
    right
    refine ⟨config, ?_⟩
    refine h.ignore rfl rfl rfl (h.objects.initConfHead (by simp)) (hkeep _) (fun ch o' hch => ?_)
      (fun o' ho' => ?_) hdis (by simp)
    · change HashMap.get (HashMap.insert _ _ _) ch = _ at hch
      rw [get_insert] at hch
      split_ifs at hch with heq
      · cases hch
      · exact hch
    · rcases hen o' ho' with ⟨-, hsome⟩ | hold
      · simp [hout] at hsome
      · exact hold
  | some output =>
    cases hget : config.get o with
    | some entry =>
      left
      simpa [setClient, enableHead] using gone_postError
    | none =>
      right
      refine ⟨config.insert o (configFor st₀.currentConfig output false), ?_⟩
      have hset : ((st.clients client).setConf x
          (.ongoing (config.insert o (configFor st₀.currentConfig output false)))).ObjectsInv :=
        h.objects.keep (fun _ _ hs => hs) (fun _ _ hs => hs) (Nat.le_refl _)
      refine h.add hget hout ⟨head, by simp, h.heads ▸ ho, by simp [hout]⟩ (fun o' ho' => ?_)
        (fun o' ho' => .inr (hdis o' ho')) rfl rfl ?_ (hset.initConfHead ?_) (hkeep _)
        (fun ch o' hch => ?_) (by simp)
      · exact (hen o' ho').imp (fun heq => ⟨heq.1, rfl⟩) id
      · exact (Client.conf_setConf_self h.ongoing)
      · intro o' y heq
        obtain ⟨-, rfl⟩ := OutputConfigurationHeadState.ok.inj heq
        exact hx
      · change HashMap.get (HashMap.insert _ _ _) ch = _ at hch
        rw [get_insert] at hch
        split_ifs at hch with heq
        · obtain ⟨rfl, -⟩ := OutputConfigurationHeadState.ok.inj (some.inj hch)
          exact .inl ⟨rfl, rfl⟩
        · exact .inr hch

theorem configured_disableHead (h : Configured st₀ client x requests st config) {head : ℕ}
    (hstep : st.configuration ord client x (.disableHead head) = some st') :
    Gone (st'.clients client) ∨
      ∃ config', Configured st₀ client x (requests ++ [.disableHead head]) st' config' := by
  obtain ⟨serial, hserial, hstep⟩ := of_bind hstep
  obtain ⟨o, ho, hstep⟩ := of_bind hstep
  obtain rfl := some.inj (hserial.symm.trans h.current)
  obtain rfl := some.inj hstep
  rw [bne_self_eq_false, configureHead_eq h]
  have hdis : ∀ o', st₀.Disables client (requests ++ [.disableHead head]) o' →
      o' = o ∧ (st₀.currentState.get o).isSome ∨ st₀.Disables client requests o' := by
    intro o' ho'
    rcases asked_concat ho' with ho' | ⟨head', heq, hget, hsome⟩
    · exact .inr ho'
    · obtain rfl := Request.disableHead.inj heq
      rw [← h.heads, ho] at hget
      obtain rfl := some.inj hget
      exact .inl ⟨rfl, hsome⟩
  have hen : ∀ o', st₀.Enables client (requests ++ [.disableHead head]) o' →
      st₀.Enables client requests o' :=
    fun _ ho' => asked_of_concat ho' (by simp)
  cases hout : st₀.currentState.get o with
  | none =>
    right
    refine ⟨config, ?_⟩
    refine h.ignore rfl rfl rfl h.objects (fun _ _ hs => hs) (fun _ _ hs => hs) hen (fun o' ho' => ?_)
      (by simp)
    rcases hdis o' ho' with ⟨-, hsome⟩ | hold
    · simp [hout] at hsome
    · exact hold
  | some output =>
    cases hget : config.get o with
    | some entry =>
      left
      simpa [setClient, disableHead] using gone_postError
    | none =>
      right
      refine ⟨config.insert o (configFor st₀.currentConfig output true), ?_⟩
      refine h.add hget hout ⟨head, by simp, h.heads ▸ ho, by simp [hout]⟩
        (fun o' ho' => .inr (hen o' ho')) (fun o' ho' => ?_) rfl rfl
        (Client.conf_setConf_self h.ongoing)
        (h.objects.keep (fun _ _ hs => hs) (fun _ _ hs => hs) (Nat.le_refl _)) (fun _ _ hs => hs)
        (fun _ _ hs => .inr hs) (by simp)
      exact (hdis o' ho').imp (fun heq => ⟨heq.1, rfl⟩) id

theorem configured_set (h : Configured st₀ client x requests st config) {ch : ℕ}
    {r : ConfigurationHeadRequest}
    (hstep : st.configurationHead client ch r = some st') :
    Gone (st'.clients client) ∨
      ∃ config', Configured st₀ client x (requests ++ [.set ch r]) st' config' := by
  obtain ⟨state, hch, hstep⟩ := of_bind hstep
  have hen : ∀ o', st₀.Enables client (requests ++ [.set ch r]) o' → st₀.Enables client requests o' :=
    fun _ ho => asked_of_concat ho (by simp)
  have hdis : ∀ o', st₀.Disables client (requests ++ [.set ch r]) o' →
      st₀.Disables client requests o' :=
    fun _ ho => asked_of_concat ho (by simp)
  have hset : ∀ ch' r', Request.set ch r = .set ch' r' →
      ((st.clients client).confHeads.get ch').isSome := by
    intro ch' r' heq
    obtain ⟨rfl, -⟩ := Request.set.inj heq
    simp [hch]
  have hignored : Configured st₀ client x (requests ++ [.set ch r])
      (st.setClient client (st.clients client)) config :=
    h.ignore rfl rfl rfl h.objects (fun _ _ hs => hs) (fun _ _ hs => hs) hen hdis hset
  cases state with
  | cancelled =>
    obtain rfl := some.inj hstep
    rw [setClient, Function.update_eq_self] at hignored
    exact .inr ⟨config, hignored⟩
  | ok o y =>
    obtain rfl := some.inj hstep
    have hsame : ∀ st'', st'' = st.setClient client (st.clients client) →
        Gone (st''.clients client) ∨
          ∃ config', Configured st₀ client x (requests ++ [.set ch r]) st'' config' := by
      rintro st'' rfl
      exact .inr ⟨config, hignored⟩
    have hclient : ∀ c, (st.setClient client c).clients client = c := fun c => by simp [setClient]
    unfold configureProperty
    split
    · split
      · exact hsame _ rfl
      · left
        rw [hclient]
        exact gone_postError
      · rename_i config' hongoing
        split
        · exact hsame _ rfl
        · rename_i entry hentry
          split
          · left
            rw [hclient]
            exact gone_postError
          · rename_i entry' hproperty
            right
            have hobjects : ((st.clients client).setConf y
                (.ongoing (config'.insert o entry'))).ObjectsInv :=
              h.objects.keep (fun _ _ hs => hs) (fun _ _ hs => hs) (Nat.le_refl _)
            by_cases hy : y = x
            · subst hy
              obtain rfl : config = config' := by
                have := h.ongoing.symm.trans hongoing
                exact OutputConfigurationState.ongoing.inj (some.inj this)
              exact ⟨_, h.change hch hentry hproperty rfl rfl (Client.conf_setConf_self hongoing)
                hobjects rfl⟩
            · refine ⟨config, h.ignore rfl rfl ?_ hobjects (fun _ _ hs => hs) (fun _ _ hs => hs) hen
                hdis hset⟩
              exact Client.conf_setConf_of_ne (Ne.symm hy)
    · exact hsame _ rfl

/-- A client without an entry does not get one from requests on configurations. -/
theorem data_none_requestStep (hnone : (st.clients client).data = none)
    (h : requestStep ord client x st request = some st') : (st'.clients client).data = none := by
  have hconf : ∀ y, (st.clients client).conf y = none := fun y => by simp [Client.conf, hnone]
  have hhead : ∀ outdated o off, st.configureHead (st.clients client) x outdated o off = .ignored := by
    intro outdated o off
    simp [configureHead, hconf]
  cases request with
  | enableHead head =>
    obtain ⟨serial, -, h⟩ := of_bind h
    obtain ⟨o, -, rfl⟩ := of_bind_some h
    simp [hhead, setClient, enableHead, Client.initConfHead, hnone]
  | disableHead head =>
    obtain ⟨serial, -, h⟩ := of_bind h
    obtain ⟨o, -, rfl⟩ := of_bind_some h
    simp [hhead, setClient, disableHead, hnone]
  | set ch r =>
    obtain ⟨state, -, h⟩ := of_bind h
    cases state with
    | cancelled =>
      obtain rfl := some.inj h
      exact hnone
    | ok o y =>
      obtain rfl := some.inj h
      simp only [setClient, Function.update_self, configureProperty, hconf]
      split <;> exact hnone

theorem configured_run (h : Configured st₀ client x [] st₀ config)
    (hrun : run (requestStep ord client x) st₀ requests = some st) :
    Gone (st.clients client) ∨ ∃ config, Configured st₀ client x requests st config := by
  have hi := run_invariant_prefixes
    (I := fun requests st => Gone (st.clients client) ∨
      ∃ config, Configured st₀ client x requests st config)
    (fun ys s a t hs hstep => ?_) (.inr ⟨config, h⟩) hrun
  · simpa using hi
  · rcases hs with ⟨-, hconfs, hheads⟩ | ⟨config, hconfigured⟩
    · -- A client without objects cannot make requests.
      cases a with
      | enableHead head =>
        obtain ⟨serial, hserial, -⟩ := of_bind hstep
        simp [hconfs] at hserial
      | disableHead head =>
        obtain ⟨serial, hserial, -⟩ := of_bind hstep
        simp [hconfs] at hserial
      | set ch r =>
        obtain ⟨state, hstate, -⟩ := of_bind hstep
        simp [hheads] at hstate
    · cases a with
      | enableHead head =>
        have hstep : s.configuration ord client x (.enableHead head) = some t := hstep
        exact configured_enableHead hconfigured hstep
      | disableHead head =>
        have hstep : s.configuration ord client x (.disableHead head) = some t := hstep
        exact configured_disableHead hconfigured hstep
      | set ch r => exact configured_set hconfigured hstep

/-- A configuration object that was just created for the current state. -/
theorem configured_create {manager : ℕ} {d : ClientData} (hi : st.ObjectsInv)
    (hd : (st.clients client).data = some d)
    (hcreate : st.createConfiguration client manager st.serial = some st₀) :
    Configured st₀ client (st.clients client).nextObject [] st₀ ∅ := by
  have hstep : st.step (.arbitrary, .createConfiguration client manager st.serial) = some st₀ := hcreate
  have hobjects := objectsInv_step hi hstep client
  obtain ⟨-, -, rfl⟩ := of_bind_some hcreate
  refine ⟨rfl, rfl, rfl, ?_, ?_, hobjects, fun o entry h => ?_, fun o ho => ?_,
    fun o entry h => ?_, fun ch o hch => ?_, fun ch r hr => ?_⟩
  · simp [setClient, hd, Client.setConf]
  · simp [setClient, hd, Client.setConf, Client.conf]
  · simp at h
  · rcases ho with ⟨h, hmem, -⟩ | ⟨h, hmem, -⟩ <;> cases hmem
  · simp at h
  · have hch' : (st.clients client).confHeads.get ch = some (.ok o (st.clients client).nextObject) := by
      simpa [setClient, hd, Client.setConf] using hch
    exact absurd ((hi client).conf ch o _ hch') (by omega)
  · cases hr

/-! What `find` gives after the configuration was applied. -/

/-- No name of a section is one for both outputs. -/
def NonMatching (n n' : OutputName) : Prop :=
  ∀ target, ¬ (n.matches target = true ∧ n'.matches target = true)

theorem matches_previous {list : List OutputConfig} {output : Output} :
    output.outputName.matches (previous list output).name = true := by
  unfold previous
  cases hfind : find list output.outputName with
  | none => exact OutputName.matches_format _
  | some entry => simpa using find?_some hfind

theorem Configured.name (h : Configured st₀ client x requests st config) {entry : OutputConfig}
    {output : Output} (hget : config.get o = some entry) (hout : st₀.currentState.get o = some output) :
    entry.name = (previous st₀.currentConfig output).name := by
  obtain ⟨output', hout', hcase⟩ := h.entries o entry hget
  obtain rfl := some.inj (hout.symm.trans hout')
  rcases hcase with ⟨-, rfl⟩ | ⟨-, hdiff⟩
  · rfl
  · exact hdiff.name

theorem Configured.matches (h : Configured st₀ client x requests st config) {entry : OutputConfig}
    {output : Output} (hget : config.get o = some entry) (hout : st₀.currentState.get o = some output) :
    output.outputName.matches entry.name = true :=
  h.name hget hout ▸ matches_previous

/-- An output whose name is for none of the others finds its own entry. -/
theorem Configured.find_self (h : Configured st₀ client x requests st config) {entry : OutputConfig}
    {output : Output} (hget : config.get o = some entry) (hout : st₀.currentState.get o = some output)
    (hnames : ∀ o' output', o' ≠ o → st₀.currentState.get o' = some output' →
      NonMatching output.outputName output'.outputName) :
    find ((ord.iter config).map Sigma.snd) output.outputName = some entry := by
  have hsome : (find ((ord.iter config).map Sigma.snd) output.outputName).isSome := by
    rw [find, find?_isSome]
    refine ⟨entry, List.mem_map.mpr ⟨⟨o, entry⟩, (mem_iter ord).mpr hget, rfl⟩, ?_⟩
    exact h.matches hget hout
  obtain ⟨entry', hfind⟩ := isSome_iff_exists.mp hsome
  obtain ⟨⟨o', e⟩, hmem, rfl⟩ := List.mem_map.mp (mem_of_find?_eq_some hfind)
  have hget' := (mem_iter ord).mp hmem
  have hmatch := find?_some hfind
  obtain ⟨output', hout', -⟩ := h.entries o' e hget'
  by_cases ho : o' = o
  · subst ho
    obtain rfl := some.inj (hget.symm.trans hget')
    exact hfind
  · exact absurd ⟨hmatch, h.matches hget' hout'⟩ (hnames o' output' ho hout' e.name)

/-- The section of the name is not that of an output that the requests mention, nor becomes it. -/
def Unmentioned (st₀ : OutputManagementManagerState) (client : ℕ) (requests : List Request)
    (n : OutputName) : Prop :=
  ∀ o output, st₀.Enables client requests o ∨ st₀.Disables client requests o →
    st₀.currentState.get o = some output →
      match find st₀.currentConfig n with
      | some entry => entry.name ≠ (previous st₀.currentConfig output).name
      | none => n.matches (previous st₀.currentConfig output).name = false

/-- The list that is applied has only the sections of the outputs that are mentioned. -/
theorem Configured.section_of_mem (h : Configured st₀ client x requests st config) {entry : OutputConfig}
    (hmem : entry ∈ (ord.iter config).map Sigma.snd) : ∃ o output,
    (st₀.Enables client requests o ∨ st₀.Disables client requests o) ∧
      st₀.currentState.get o = some output ∧
      entry.name = (previous st₀.currentConfig output).name := by
  obtain ⟨⟨o, e⟩, hentry, rfl⟩ := List.mem_map.mp hmem
  have hget := (mem_iter ord).mp hentry
  obtain ⟨output, hout, hcase⟩ := h.entries o e hget
  refine ⟨o, output, ?_, hout, h.name hget hout⟩
  rcases hcase with ⟨hdis, -⟩ | ⟨hen, -⟩
  · exact .inr hdis
  · exact .inl hen

/-- An output that is not mentioned finds the same as before exactly if that is nothing. -/
theorem Configured.find_other (h : Configured st₀ client x requests st config) {n : OutputName}
    (hn : st₀.Unmentioned client requests n) :
    find ((ord.iter config).map Sigma.snd) n = find st₀.currentConfig n ↔
      find st₀.currentConfig n = none := by
  constructor
  · intro hsame
    by_contra hsome
    obtain ⟨entry, hfind⟩ := ne_none_iff_exists'.mp hsome
    obtain ⟨o, output, hasked, hout, hname⟩ :=
      h.section_of_mem (mem_of_find?_eq_some (hsame.trans hfind))
    have hother := hn o output hasked hout
    rw [hfind] at hother
    exact hother hname
  · intro hnone
    rw [hnone, find, find?_eq_none]
    intro entry hmem hmatch
    obtain ⟨o, output, hasked, hout, hname⟩ := h.section_of_mem hmem
    have hother := hn o output hasked hout
    rw [hnone, ← hname] at hother
    rw [hmatch] at hother
    cases hother

/-- Applying the requests changes the entries of the outputs they are about, as they say, and no
others. -/
structure OnlyMentioned (st₀ : OutputManagementManagerState) (client x : ℕ) (requests : List Request)
    (st₁ st₂ : OutputManagementManagerState) : Prop where
  other : ∀ n, st₀.Unmentioned client requests n →
    find st₂.currentConfig n = find st₀.currentConfig n
  disabled : ∀ o output, st₀.Disables client requests o → st₀.currentState.get o = some output →
    find st₂.currentConfig output.outputName =
      some { previous st₀.currentConfig output with off := true }
  enabled : ∀ o output, st₀.Enables client requests o → st₀.currentState.get o = some output →
    ∃ entry, find st₂.currentConfig output.outputName = some entry ∧
      DiffersOnly (st₁.properties client x requests o) (previous st₀.currentConfig output) entry

/-- What a configuration that went through is applied as. -/
theorem currentConfig_apply (h : Configured st₀ client x requests st config)
    (happly : st.configuration ord client x .apply = some st')
    (happlied : ∃ list, (st'.clients client).log = (st.clients client).log ++
      [.applyOutputConfig x list, .event (.succeeded x)]) :
    st'.currentConfig = (ord.iter config).map Sigma.snd := by
  obtain ⟨serial, hserial, happly⟩ := of_bind happly
  obtain rfl := some.inj (hserial.symm.trans h.current)
  obtain ⟨list, hlog⟩ := happlied
  simp only [bne_self_eq_false, finishConfiguration, Bool.false_eq_true, if_false, h.ongoing] at happly
  by_cases hany : ((ord.iter config).map Sigma.snd).any (!·.off) = true
  · simp only [hany, if_true] at happly
    obtain rfl := some.inj happly
    rfl
  · simp only [hany, Bool.false_eq_true, if_false] at happly
    obtain rfl := some.inj happly
    simp [setClient, Client.send, Client.setConf] at hlog

/-- A configuration is applied as the client asks, and to nothing else, exactly if no other output has
an entry: the new list has entries only for the outputs of the configuration. -/
theorem onlyMentioned_iff {list : List OutputConfig} {actions : List (IterOrder × Action)}
    {st₁ st₂ : OutputManagementManagerState} {manager : ℕ}
    (hrun : run step (new list) actions = some st)
    (hcreate : st.createConfiguration client manager st.serial = some st₀)
    (hrequests : run (requestStep ord client (st.clients client).nextObject) st₀ requests = some st₁)
    (happly : st₁.configuration ord client (st.clients client).nextObject .apply = some st₂)
    (happlied : ∃ config, (st₂.clients client).log = (st₁.clients client).log ++
      [.applyOutputConfig (st.clients client).nextObject config,
        .event (.succeeded (st.clients client).nextObject)])
    (hnames : ∀ o o' output output', o' ≠ o → st₀.currentState.get o = some output →
      st₀.currentState.get o' = some output' → NonMatching output.outputName output'.outputName) :
    st₀.OnlyMentioned client (st.clients client).nextObject requests st₁ st₂ ↔
      ∀ n, st₀.Unmentioned client requests n → find st₀.currentConfig n = none := by
  obtain ⟨config, hconfigured⟩ :
      ∃ config, Configured st₀ client (st.clients client).nextObject requests st₁ config := by
    cases hd : (st.clients client).data with
    | none =>
      exfalso
      have hd₀ : (st₀.clients client).data = none := by
        obtain ⟨-, -, rfl⟩ := of_bind_some hcreate
        simp [OutputManagementManagerState.setClient, hd]
      have hd₁ : (st₁.clients client).data = none :=
        run_invariant (I := fun st => (st.clients client).data = none)
          (fun _ _ _ hs hstep => data_none_requestStep hs hstep) hd₀ hrequests
      obtain ⟨serial, -, h⟩ := of_bind happly
      obtain ⟨list, hlog⟩ := happlied
      cases houtdated : (serial != st₁.serial) <;>
        simp only [houtdated, finishConfiguration, Client.conf, hd₁, bind_none, if_true,
          Bool.false_eq_true, if_false] at h <;>
        obtain rfl := some.inj h <;> simp [OutputManagementManagerState.setClient, Client.send] at hlog
    | some d =>
      have hstart := configured_create (objectsInv_run hrun) hd hcreate
      rcases configured_run hstart hrequests with ⟨-, hconfs, -⟩ | hconfigured
      · obtain ⟨serial, hserial, -⟩ := of_bind happly
        simp [hconfs] at hserial
      · exact hconfigured
  have hconfig := currentConfig_apply hconfigured happly happlied
  have hself : ∀ o output entry, st₀.currentState.get o = some output → config.get o = some entry →
      find st₂.currentConfig output.outputName = some entry := by
    intro o output entry hout hget
    rw [hconfig]
    exact hconfigured.find_self hget hout fun o' output' ho => hnames o o' output output' ho hout
  constructor
  · intro h n hn
    exact (hconfigured.find_other hn).mp (hconfig ▸ h.other n hn)
  · intro h
    refine ⟨fun n hn => ?_, fun o output hdis hout => ?_, fun o output hen hout => ?_⟩
    · rw [hconfig]
      exact (hconfigured.find_other hn).mpr (h n hn)
    · obtain ⟨entry, hget⟩ := isSome_iff_exists.mp (hconfigured.asked o (.inr hdis))
      rw [hself o output entry hout hget]
      obtain ⟨output', hout', ⟨-, rfl⟩ | ⟨-, hdiff⟩⟩ := hconfigured.entries o entry hget
      · obtain rfl := some.inj (hout.symm.trans hout')
        rfl
      · have := (hconfigured.off o entry hget).2 hdis
        rw [hdiff.off] at this
        cases this
    · obtain ⟨entry, hget⟩ := isSome_iff_exists.mp (hconfigured.asked o (.inl hen))
      refine ⟨entry, hself o output entry hout hget, ?_⟩
      obtain ⟨output', hout', ⟨-, rfl⟩ | ⟨-, hdiff⟩⟩ := hconfigured.entries o entry hget
      · have := (hconfigured.off o _ hget).1 hen
        cases this
      · obtain rfl := some.inj (hout.symm.trans hout')
        exact hdiff

/-! A client that moves a panel. -/

/-- A client binds a manager and learns of a panel. -/
def panelActions (ord : IterOrder) : List (IterOrder × Action) :=
  [(ord, .bind 0 4), (ord, .notifyChanges (panelState [⟨1920, 1080, 60000, true⟩] 0))]

/-- It enables the panel at another position. -/
def panelRequests : List Request := [.enableHead 2, .set 5 (.setPosition 0 0)]

theorem run_panel (ord : IterOrder) (list : List OutputConfig) : ∃ st st₀ st₁ st₂,
    run step (new list) (panelActions ord) = some st ∧
    st.createConfiguration 0 1 st.serial = some st₀ ∧ (st.clients 0).nextObject = 4 ∧
    run (requestStep ord 0 4) st₀ panelRequests = some st₁ ∧
    st₁.configuration ord 0 4 .apply = some st₂ ∧
    (st₂.clients 0).log = (st₁.clients 0).log ++
      [.applyOutputConfig 4 st₂.currentConfig, .event (.succeeded 4)] ∧
    st₀.currentState = panelState [⟨1920, 1080, 60000, true⟩] 0 ∧ st₀.currentConfig = list ∧
    st₂.currentConfig = [{ configFor list (panel [⟨1920, 1080, 60000, true⟩] 0) false with
      position := some ⟨0, 0⟩ }] := by
  simp [panelActions, panelRequests, run, step, requestStep, Request.action, notifyChanges,
    notifyClient, stateChanged, iter_singleton, panelState, bind, new, setClient,
    Function.update, Client.initial, sendNewHead, Client.send, outputChanged, Client.notifyEntry,
    Client.notifyNewHead, Client.notifyGone, Client.notifyDone, createConfiguration, configuration,
    enableHead, configureHead, Client.conf, Client.setConf, Client.initConfHead,
    finishConfiguration, Client.applied, configurationHead, configureProperty, setProperty, panel]

theorem panel_names {modes : List Mode} {currentMode o o' : ℕ} {output output' : Output} (h : o' ≠ o)
    (hout : (panelState modes currentMode).get o = some output)
    (hout' : (panelState modes currentMode).get o' = some output') :
    NonMatching output.outputName output'.outputName := by
  obtain ⟨rfl, -⟩ := get_panelState hout
  obtain ⟨rfl, -⟩ := get_panelState hout'
  exact absurd rfl h

theorem onlyMentioned_panel : ∃ st st₀ st₁ st₂,
    run step (new []) (panelActions .arbitrary) = some st ∧
    st.createConfiguration 0 1 st.serial = some st₀ ∧
    run (requestStep .arbitrary 0 4) st₀ panelRequests = some st₁ ∧
    st₁.configuration .arbitrary 0 4 .apply = some st₂ ∧
    st₀.OnlyMentioned 0 4 panelRequests st₁ st₂ := by
  obtain ⟨st, st₀, st₁, st₂, hrun, hcreate, hx, hrequests, happly, hlog, hstate, hconfig, -⟩ :=
    run_panel .arbitrary []
  refine ⟨st, st₀, st₁, st₂, hrun, hcreate, hrequests, happly, ?_⟩
  rw [← hx] at hrequests happly hlog ⊢
  refine (onlyMentioned_iff hrun hcreate hrequests happly ⟨_, hlog⟩ ?_).mpr ?_
  · rw [hstate]
    exact fun o o' output output' ho hout hout' => panel_names ho hout hout'
  · intro n _
    rw [hconfig]
    rfl

/-- An output that is not connected, and its section in the config. -/
def projector : OutputConfig := { OutputConfig.default with name := "HDMI-A-1", scale := some 2 }

theorem not_onlyMentioned : ¬ ∀ (list : List OutputConfig) (actions : List (IterOrder × Action))
    (ord : IterOrder) (st st₀ st₁ st₂ : OutputManagementManagerState) (client manager x : ℕ)
    (requests : List Request), run step (new list) actions = some st →
    st.createConfiguration client manager st.serial = some st₀ → x = (st.clients client).nextObject →
    run (requestStep ord client x) st₀ requests = some st₁ →
    st₁.configuration ord client x .apply = some st₂ →
    (∃ config, (st₂.clients client).log = (st₁.clients client).log ++
      [.applyOutputConfig x config, .event (.succeeded x)]) →
    (∀ o o' output output', o' ≠ o → st₀.currentState.get o = some output →
      st₀.currentState.get o' = some output' → NonMatching output.outputName output'.outputName) →
    st₀.OnlyMentioned client x requests st₁ st₂ := by
  intro hall
  obtain ⟨st, st₀, st₁, st₂, hrun, hcreate, hx, hrequests, happly, hlog, hstate, hconfig, hnew⟩ :=
    run_panel .arbitrary [projector]
  have honly := hall _ _ _ st st₀ st₁ st₂ 0 1 4 _ hrun hcreate hx.symm hrequests happly ⟨_, hlog⟩ (by
    rw [hstate]
    exact fun o o' output output' ho hout hout' => panel_names ho hout hout')
  have hother := honly.other ⟨"HDMI-A-1", none, none, none⟩ fun o output _ hout => by
    rw [hstate] at hout
    obtain ⟨-, rfl⟩ := get_panelState hout
    have hfind : find [projector] ⟨"HDMI-A-1", none, none, none⟩ = some projector := by decide
    rw [hconfig, hfind]
    dsimp only
    decide
  rw [hnew, hconfig] at hother
  revert hother
  decide

end OutputManagementManagerState

end Macniri.OutputManagement

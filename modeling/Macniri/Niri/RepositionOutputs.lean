import Mathlib.Data.List.Nodup
import Macniri.OutputManagement.State

/-! Positions of the outputs in the global space: configured outputs first, by name, and each one
clear of those before it. -/
namespace Macniri

open Option List

namespace Layout.OutputName

/-- `OutputName::compare`: by make, model and serial, if any is known, and then by connector. -/
protected def compare (a b : OutputName) : Ordering :=
  match a.missingMms, b.missingMms with
  | true, true => compare a.connector b.connector
  | true, false => .gt
  | false, true => .lt
  | false, false =>
    (compare a.make b.make).then <| (compare a.model b.model).then <|
      (compare a.serial b.serial).then (compare a.connector b.connector)

theorem missingMms_iff {n : OutputName} :
    n.missingMms = true ↔ n.make = none ∧ n.model = none ∧ n.serial = none := by
  simp [missingMms, and_assoc]

/-- The order is lexicographic: names without make, model and serial come last. -/
theorem compare_eq_lex : OutputName.compare =
    compareLex (compareOn OutputName.missingMms) (compareLex (compareOn OutputName.make)
      (compareLex (compareOn OutputName.model) (compareLex (compareOn OutputName.serial)
        (compareOn OutputName.connector)))) := by
  funext a b
  unfold OutputName.compare compareLex compareOn
  cases ha : a.missingMms with
  | true =>
    cases hb : b.missingMms with
    | true =>
      obtain ⟨hmake, hmodel, hserial⟩ := missingMms_iff.mp ha
      obtain ⟨hmake', hmodel', hserial'⟩ := missingMms_iff.mp hb
      rw [hmake, hmodel, hserial, hmake', hmodel', hserial']
      rfl
    | false => rfl
  | false =>
    cases hb : b.missingMms with
    | true => rfl
    | false => rfl

instance : Std.TransCmp OutputName.compare := by
  rw [compare_eq_lex]
  infer_instance

theorem eq_of_compare_eq {a b : OutputName} (h : OutputName.compare a b = .eq) : a = b := by
  rw [compare_eq_lex] at h
  unfold compareLex compareOn at h
  simp only [Ordering.then_eq_eq, Std.LawfulEqCmp.compare_eq_iff_eq] at h
  obtain ⟨-, hmake, hmodel, hserial, hconnector⟩ := h
  obtain ⟨connector, make, model, serial⟩ := a
  obtain ⟨connector', make', model', serial'⟩ := b
  obtain rfl : make = make' := hmake
  obtain rfl : model = model' := hmodel
  obtain rfl : serial = serial' := hserial
  obtain rfl : connector = connector' := hconnector
  rfl

end Layout.OutputName

namespace Niri

open Layout (Output OutputName)
open OutputManagement (OutputConfig Position find)

/-- In logical pixels of the global space. -/
structure Rectangle where
  loc : Position
  size : Layout.ISize
  deriving DecidableEq, Repr

def Rectangle.overlaps (r o : Rectangle) : Bool :=
  r.loc.x < o.loc.x + o.size.w ∧ o.loc.x < r.loc.x + r.size.w ∧
    r.loc.y < o.loc.y + o.size.h ∧ o.loc.y < r.loc.y + r.size.h

/-- The outputs that are mapped in the global space, each at its location. -/
abbrev Space := List (Output × Position)

namespace Space

def outputs (space : Space) : List Output := space.map Prod.fst

def unmapOutput (space : Space) (output : Output) : Space := space.filter (·.1 ≠ output)

def mapOutput (space : Space) (output : Output) (location : Position) : Space :=
  if output ∈ space.outputs then space.map fun o => if o.1 = output then (output, location) else o
  else space ++ [(output, location)]

def location (space : Space) (output : Output) : Option Position :=
  (space.find? (·.1 = output)).map Prod.snd

end Space

/-- What the compositor keeps of the positions. The last field records the outputs that were told a
new location, which also redraws them. -/
structure State where
  globalSpace : Space
  sortedOutputs : List Output
  ipcOutputsChanged : Bool
  relocated : List (Output × Position)
  deriving DecidableEq

structure Data where
  output : Output
  position : Option Position
  config : Option Position

def outputSize (output : Output) : Layout.ISize := output.viewSize.toI32Round

def configuredPosition (config : List OutputConfig) (output : Output) : Option Position :=
  (find config output.name).bind (·.position)

/-- The outputs with their data, before they are unmapped. -/
def gather (config : List OutputConfig) (space : Space) (newOutput : Option Output) : List Data :=
  (space.outputs ++ newOutput.toList).map fun output =>
    ⟨output, space.location output, configuredPosition config output⟩

/-- Place all outputs with explicitly configured position first, then the unconfigured ones. The
second sort is stable. -/
def sortData (outputs : List Data) : List Data :=
  let outputs := outputs.mergeSort fun a b => (OutputName.compare a.output.name b.output.name).isLE
  outputs.mergeSort fun a b => (compare a.config.isNone b.config.isNone).isLE

section Placement

-- The size that the space reports for an output.
variable (geometrySize : Output → Layout.ISize)

def outputGeometry (o : Output × Position) : Rectangle := ⟨o.2, geometrySize o.1⟩

def newPosition (space : Space) (output : Output) (config : Option Position) : Position :=
  let requested := config.filter fun pos =>
    -- Ensure that the requested position does not overlap any existing output.
    !space.any fun o => (outputGeometry geometrySize o).overlaps ⟨pos, outputSize output⟩
  requested.getD ⟨(space.map fun o => o.2.x + (geometrySize o.1).w).max?.getD 0, 0⟩

def place (s : State) (data : Data) : State :=
  let position := newPosition geometrySize s.globalSpace data.output data.config
  let s := { s with globalSpace := s.globalSpace.mapOutput data.output position }
  if some position ≠ data.position then
    { s with ipcOutputsChanged := true, relocated := s.relocated ++ [(data.output, position)] }
  else s

def repositionOutputs (config : List OutputConfig) (newOutput : Option Output) (s : State) : State :=
  let outputs := gather config s.globalSpace newOutput
  let space := outputs.foldl (fun space data => space.unmapOutput data.output) s.globalSpace
  let outputs := sortData outputs
  outputs.foldl (place geometrySize)
    { s with globalSpace := space, sortedOutputs := outputs.map Data.output }

/-! The order of the outputs. -/

/-- The outputs in the order in which they are placed. -/
def sortOutputs (config : List OutputConfig) (outputs : List Output) : List Output :=
  (outputs.mergeSort fun a b => (OutputName.compare a.name b.name).isLE).mergeSort fun a b =>
    (compare (configuredPosition config a).isNone (configuredPosition config b).isNone).isLE

variable {geometrySize : Output → Layout.ISize} {config : List OutputConfig} {s t : State}
variable {space : Space} {newOutput : Option Output} {output : Output} {outputs : List Output}
variable {ds : List Data}

theorem sortOutputs_perm (config : List OutputConfig) (outputs : List Output) :
    (sortOutputs config outputs).Perm outputs :=
  (mergeSort_perm ..).trans (mergeSort_perm ..)

theorem compare_isLE_total (a b : OutputName) :
    ((OutputName.compare a b).isLE || (OutputName.compare b a).isLE) = true := by
  have hswap : OutputName.compare b a = (OutputName.compare a b).swap := Std.OrientedCmp.eq_swap
  rw [hswap]
  cases OutputName.compare a b <;> rfl

/-- The connectors tell the outputs apart, so the order does not depend on how they are listed. -/
theorem sortOutputs_congr {outputs' : List Output} (h : outputs.Perm outputs')
    (hconnectors : (outputs.map (·.name.connector)).Nodup) :
    sortOutputs config outputs = sortOutputs config outputs' := by
  have hsorted (l : List Output) :
      (l.mergeSort fun a b => (OutputName.compare a.name b.name).isLE).Pairwise
        fun a b => (OutputName.compare a.name b.name).isLE := by
    refine pairwise_mergeSort (fun a b c hab hbc => ?_) (fun a b => compare_isLE_total ..) l
    exact Std.TransCmp.isLE_trans hab hbc
  have hperm := (mergeSort_perm outputs fun a b =>
    (OutputName.compare a.name b.name).isLE).trans
      (h.trans (mergeSort_perm outputs' fun a b =>
        (OutputName.compare a.name b.name).isLE).symm)
  have heq := Perm.eq_of_pairwise (fun a b ha hb hab hba => ?_) (hsorted outputs)
    (hsorted outputs') hperm
  · unfold sortOutputs
    rw [heq]
  · have hname := Layout.OutputName.eq_of_compare_eq (Std.OrientedCmp.isLE_antisymm hab hba)
    have ha := (mergeSort_perm ..).mem_iff.mp ha
    have hb := h.mem_iff.mpr ((mergeSort_perm ..).mem_iff.mp hb)
    exact inj_on_of_nodup_map hconnectors ha hb (congrArg OutputName.connector hname)

/-- Each output has its own configured position. -/
def Configured (config : List OutputConfig) (ds : List Data) : Prop :=
  ∀ d ∈ ds, d.config = configuredPosition config d.output

theorem sortData_perm (ds : List Data) : (sortData ds).Perm ds :=
  (mergeSort_perm ..).trans (mergeSort_perm ..)

theorem Configured.sortData (h : Configured config ds) : Configured config (sortData ds) :=
  fun d hd => h d ((sortData_perm ds).mem_iff.mp hd)

theorem map_sortData (h : Configured config ds) :
    (sortData ds).map Data.output = sortOutputs config (ds.map Data.output) := by
  unfold sortData sortOutputs
  have hname : (ds.mergeSort fun a b =>
        (OutputName.compare a.output.name b.output.name).isLE).map Data.output =
      (ds.map Data.output).mergeSort fun a b => (OutputName.compare a.name b.name).isLE :=
    map_mergeSort fun a _ b _ => rfl
  rw [← hname]
  refine map_mergeSort fun a ha b hb => ?_
  rw [h a ((mergeSort_perm ..).mem_iff.mp ha), h b ((mergeSort_perm ..).mem_iff.mp hb)]

theorem map_output_gather (config : List OutputConfig) (space : Space) (newOutput : Option Output) :
    (gather config space newOutput).map Data.output = space.outputs ++ newOutput.toList := by
  unfold gather
  rw [List.map_map]
  exact List.map_id _

theorem configured_gather (config : List OutputConfig) (space : Space) (newOutput : Option Output) :
    Configured config (gather config space newOutput) := by
  intro d hd
  obtain ⟨output, -, rfl⟩ := List.mem_map.mp hd
  rfl

/-! Placing the outputs one after the other. -/

/-- The space after the outputs are placed. -/
def settle (geometrySize : Output → Layout.ISize) (config : List OutputConfig) :
    Space → List Output → Space
  | space, [] => space
  | space, output :: outputs =>
    let position := newPosition geometrySize space output (configuredPosition config output)
    settle geometrySize config (space ++ [(output, position)]) outputs

variable (geometrySize config) in
theorem settle_prefix (space : Space) (outputs : List Output) :
    ∃ rest, settle geometrySize config space outputs = space ++ rest := by
  induction outputs generalizing space with
  | nil => exact ⟨[], (append_nil _).symm⟩
  | cons output outputs ih =>
    obtain ⟨rest, hrest⟩ := ih (space ++ [(output, _)])
    exact ⟨_ :: rest, hrest.trans (append_assoc ..)⟩

theorem outputs_settle (space : Space) (outputs : List Output) :
    (settle geometrySize config space outputs).outputs = space.outputs ++ outputs := by
  induction outputs generalizing space with
  | nil => exact (append_nil _).symm
  | cons output outputs ih =>
    refine (ih _).trans ?_
    unfold Space.outputs
    rw [map_append, append_assoc]
    rfl

theorem unmap_all (ds : List Data) (space : Space) :
    ds.foldl (fun space data => space.unmapOutput data.output) space =
      space.filter fun o => o.1 ∉ ds.map Data.output := by
  induction ds generalizing space with
  | nil => simp
  | cons d ds ih =>
    rw [foldl_cons, ih]
    unfold Space.unmapOutput
    rw [List.filter_filter]
    refine filter_congr fun o _ => ?_
    rw [← Bool.decide_and, map_cons, decide_eq_decide, mem_cons, not_or, and_comm]

theorem unmap_gather (config : List OutputConfig) (space : Space) (newOutput : Option Output) :
    (gather config space newOutput).foldl (fun space data => space.unmapOutput data.output) space =
      [] := by
  rw [unmap_all, map_output_gather, filter_eq_nil_iff]
  intro o ho
  have hmem : o.1 ∈ space.outputs := List.mem_map_of_mem ho
  simp [hmem]

theorem mapOutput_of_not_mem (h : output ∉ space.outputs) (position : Position) :
    space.mapOutput output position = space ++ [(output, position)] := if_neg h

theorem place_spec (s : State) (d : Data) :
    (place geometrySize s d).globalSpace = s.globalSpace.mapOutput d.output
        (newPosition geometrySize s.globalSpace d.output d.config) ∧
      (place geometrySize s d).sortedOutputs = s.sortedOutputs := by
  unfold place
  dsimp only
  split <;> exact ⟨rfl, rfl⟩

variable (geometrySize) in
/-- New outputs are appended. -/
theorem globalSpace_place {d : Data} (h : d.output ∉ s.globalSpace.outputs)
    (hconfig : d.config = configuredPosition config d.output) :
    (place geometrySize s d).globalSpace = s.globalSpace ++
      [(d.output, newPosition geometrySize s.globalSpace d.output
        (configuredPosition config d.output))] := by
  rw [(place_spec s d).1, mapOutput_of_not_mem h, hconfig]

theorem not_mem_append {d : Data} {p : Position}
    (h : (space.outputs ++ (d :: ds).map Data.output).Nodup) :
    d.output ∉ space.outputs ∧
      (Space.outputs (space ++ [(d.output, p)]) ++ ds.map Data.output).Nodup := by
  refine ⟨fun hmem => ?_, ?_⟩
  · exact (nodup_append'.mp h).2.2 hmem (mem_cons_self ..)
  · unfold Space.outputs at h ⊢
    rw [map_append, append_assoc]
    exact h

variable (geometrySize) in
theorem foldl_place (hconfig : Configured config ds)
    (h : (s.globalSpace.outputs ++ ds.map Data.output).Nodup) :
    (ds.foldl (place geometrySize) s).globalSpace =
        settle geometrySize config s.globalSpace (ds.map Data.output) ∧
      (ds.foldl (place geometrySize) s).sortedOutputs = s.sortedOutputs := by
  induction ds generalizing s with
  | nil => exact ⟨rfl, rfl⟩
  | cons d ds ih =>
    obtain ⟨hd, hds⟩ := not_mem_append h
    have hplace := globalSpace_place geometrySize hd
      (hconfig d (mem_cons_self ..))
    have ih := ih (s := place geometrySize s d)
      (fun e he => hconfig e (mem_cons_of_mem d he)) (hplace ▸ hds)
    rw [hplace, (place_spec s d).2] at ih
    exact ih

/-- An output that is put where it was is not told. -/
theorem place_same {d : Data} (h : d.position =
      some (newPosition geometrySize s.globalSpace d.output d.config)) :
    place geometrySize s d = { s with globalSpace := (place geometrySize s d).globalSpace } := by
  unfold place
  dsimp only
  rw [if_neg (by simp [h])]

theorem location_append {p : Position} {rest : Space} (h : output ∉ space.outputs) :
    Space.location (space ++ [(output, p)] ++ rest) output = some p := by
  have hnone : space.find? (·.1 = output) = none := by
    refine find?_eq_none.mpr fun o ho => ?_
    rintro heq
    exact h (of_decide_eq_true heq ▸ List.mem_map_of_mem ho)
  unfold Space.location
  rw [append_assoc, find?_append, hnone]
  simp

variable (geometrySize) in
theorem foldl_place_same (hconfig : Configured config ds)
    (h : (s.globalSpace.outputs ++ ds.map Data.output).Nodup)
    (hsame : ∀ d ∈ ds, d.position =
      (settle geometrySize config s.globalSpace (ds.map Data.output)).location d.output) :
    ds.foldl (place geometrySize) s =
      { s with globalSpace := settle geometrySize config s.globalSpace (ds.map Data.output) } := by
  induction ds generalizing s with
  | nil => rfl
  | cons d ds ih =>
    obtain ⟨hd, hds⟩ := not_mem_append h
    have hconfig' := hconfig d (mem_cons_self ..)
    have hplace := globalSpace_place geometrySize hd hconfig'
    have hposition := hsame d (mem_cons_self ..)
    have hsettle : settle geometrySize config s.globalSpace ((d :: ds).map Data.output) =
        settle geometrySize config (place geometrySize s d).globalSpace (ds.map Data.output) := by
      rw [hplace]
      rfl
    have hkeep : place geometrySize s d =
        { s with globalSpace := (place geometrySize s d).globalSpace } := by
      refine place_same (hposition.trans ?_)
      obtain ⟨rest, hrest⟩ := settle_prefix geometrySize config
        (place geometrySize s d).globalSpace (ds.map Data.output)
      rw [hsettle, hrest, hplace, hconfig']
      exact location_append hd
    have ih := ih (s := place geometrySize s d)
      (fun e he => hconfig e (mem_cons_of_mem d he)) (hplace ▸ hds)
      (fun e he => hsettle ▸ hsame e (mem_cons_of_mem d he))
    rw [foldl_cons, ih, hsettle]
    rw [hkeep]

/-! No two outputs overlap. -/

/-- The rectangle of an output at a position. -/
def outputRect (o : Output × Position) : Rectangle := ⟨o.2, outputSize o.1⟩

/-- The new output is clear of what the space reports for those before it. -/
theorem newPosition_clear (space : Space) (output : Output) (pos : Option Position) :
    ∀ o ∈ space, (outputGeometry geometrySize o).overlaps
      ⟨newPosition geometrySize space output pos, outputSize output⟩ = false := by
  intro o ho
  unfold newPosition
  dsimp only
  cases hrequested : pos.filter fun pos =>
      !space.any fun o => (outputGeometry geometrySize o).overlaps ⟨pos, outputSize output⟩ with
  | some p =>
    obtain ⟨-, hclear⟩ := filter_eq_some_iff.mp hrequested
    have hclear := List.any_eq_false.mp (Bool.not_eq_true' _ ▸ hclear) o ho
    exact Bool.eq_false_iff.mpr hclear
  | none =>
    have hmem : o.2.x + (geometrySize o.1).w ∈ space.map fun o => o.2.x + (geometrySize o.1).w :=
      List.mem_map_of_mem ho
    obtain ⟨x, hx⟩ := isSome_iff_exists.mp
      (isSome_max?_of_mem hmem)
    have hright := (max?_eq_some_iff.mp hx).2 _ hmem
    have hnot : ¬ x < o.2.x + (geometrySize o.1).w := by omega
    rw [hx]
    simp [Rectangle.overlaps, outputGeometry, hnot]

/-- What holds of every output, placed after those before it, holds of the space. -/
theorem settle_induction {I : Space → Prop} {outputs : List Output}
    (hstep : ∀ space output, I space → I (space ++ [(output,
      newPosition geometrySize space output (configuredPosition config output))]))
    (h : I space) : I (settle geometrySize config space outputs) := by
  induction outputs generalizing space with
  | nil => exact h
  | cons output outputs ih => exact ih (hstep space output h)

theorem settle_clear (outputs : List Output) :
    (settle geometrySize config [] outputs).Pairwise fun a b =>
      (outputGeometry geometrySize a).overlaps (outputRect b) = false := by
  refine settle_induction (fun space output h => ?_) .nil
  refine pairwise_append.mpr ⟨h, pairwise_singleton .., fun a ha b hb => ?_⟩
  obtain rfl := mem_singleton.mp hb
  exact newPosition_clear space output _ a ha

/-- Every output is where its turn puts it. -/
theorem settle_position (outputs : List Output) :
    ∀ before output position after,
      settle geometrySize config [] outputs = before ++ (output, position) :: after →
      position = newPosition geometrySize before output (configuredPosition config output) := by
  refine settle_induction (I := fun space => ∀ before output position after,
    space = before ++ (output, position) :: after →
      position = newPosition geometrySize before output (configuredPosition config output))
    (fun space o h before output position after heq => ?_) (by simp)
  rcases eq_nil_or_concat after with rfl | ⟨rest, last, rfl⟩
  · obtain ⟨rfl, hlast⟩ := append_inj' heq rfl
    obtain ⟨rfl, rfl⟩ := Prod.mk.inj (List.cons.inj hlast).1
    rfl
  · rw [concat_eq_append, ← cons_append, ← append_assoc] at heq
    exact h before output position rest (append_inj' heq rfl).1

theorem overlaps_mono {r o g : Rectangle} (h : g.overlaps r = false) (hloc : o.loc = g.loc)
    (hw : o.size.w ≤ g.size.w) (hh : o.size.h ≤ g.size.h) : o.overlaps r = false := by
  unfold Rectangle.overlaps at h ⊢
  rw [decide_eq_false_iff_not] at h ⊢
  rw [hloc]
  omega

/-- A configured position that is clear of the outputs placed before is taken. -/
theorem newPosition_configured {p : Position}
    (hclear : ∀ o ∈ space, (outputGeometry geometrySize o).overlaps ⟨p, outputSize output⟩ = false) :
    newPosition geometrySize space output (some p) = p := by
  have hany : (space.any fun o =>
      (outputGeometry geometrySize o).overlaps ⟨p, outputSize output⟩) = false :=
    List.any_eq_false.mpr fun o ho => Bool.eq_false_iff.mp (hclear o ho)
  have hkeep : (some p).filter (fun pos => !space.any fun o =>
      (outputGeometry geometrySize o).overlaps ⟨pos, outputSize output⟩) = some p :=
    filter_eq_some_iff.mpr ⟨rfl, by rw [hany]; rfl⟩
  unfold newPosition
  dsimp only
  rw [hkeep]
  rfl

/-! The whole of it. -/

/-- The outputs that are to be placed. -/
def State.allOutputs (s : State) (newOutput : Option Output) : List Output :=
  s.globalSpace.outputs ++ newOutput.toList

variable (geometrySize config) in
theorem repositionOutputs_spec (hnodup : (s.allOutputs newOutput).Nodup) :
    (repositionOutputs geometrySize config newOutput s).globalSpace =
        settle geometrySize config [] (sortOutputs config (s.allOutputs newOutput)) ∧
      (repositionOutputs geometrySize config newOutput s).sortedOutputs =
        sortOutputs config (s.allOutputs newOutput) := by
  have hconfig := configured_gather config s.globalSpace newOutput
  have hsorted := map_sortData hconfig
  rw [map_output_gather] at hsorted
  have hplace := foldl_place geometrySize
    (s := { s with globalSpace := [], sortedOutputs := sortOutputs config (s.allOutputs newOutput) })
    hconfig.sortData ?_
  · unfold repositionOutputs
    dsimp only
    rw [unmap_gather, hsorted]
    rw [hsorted] at hplace
    exact hplace
  · rw [hsorted]
    exact (sortOutputs_perm ..).nodup_iff.mpr hnodup

theorem nodup_of_connectors (h : (outputs.map (·.name.connector)).Nodup) : outputs.Nodup :=
  Nodup.of_map _ h

/-- Placing the outputs again moves none of them. -/
theorem repositionOutputs_idem (hconnectors : ((s.allOutputs newOutput).map (·.name.connector)).Nodup)
    (hs : repositionOutputs geometrySize config newOutput s = t) :
    repositionOutputs geometrySize config none t = t := by
  have hspec := repositionOutputs_spec geometrySize config (nodup_of_connectors hconnectors)
  rw [hs] at hspec
  obtain ⟨hspace, hsorted⟩ := hspec
  have hperm := sortOutputs_perm config (s.allOutputs newOutput)
  have houtputs : t.globalSpace.outputs ++ (none : Option Output).toList =
      sortOutputs config (s.allOutputs newOutput) := by
    rw [hspace, outputs_settle]
    exact append_nil _
  have hconfig := configured_gather config t.globalSpace none
  have hmap : (sortData (gather config t.globalSpace none)).map Data.output =
      sortOutputs config (s.allOutputs newOutput) := by
    rw [map_sortData hconfig, map_output_gather, houtputs]
    exact (sortOutputs_congr hperm.symm hconnectors).symm
  have hplace := foldl_place_same geometrySize (s := { t with globalSpace := [] })
    hconfig.sortData ?_ fun d hd => ?_
  · unfold repositionOutputs
    dsimp only
    rw [unmap_gather, hmap, ← hsorted]
    refine hplace.trans ?_
    rw [hmap]
    dsimp only
    rw [← hspace]
  · rw [hmap]
    exact hperm.nodup_iff.mpr (nodup_of_connectors hconnectors)
  · rw [hmap]
    dsimp only
    rw [← hspace]
    have hd := (sortData_perm _).mem_iff.mp hd
    obtain ⟨output, -, rfl⟩ := List.mem_map.mp hd
    rfl

/-- The outputs do not overlap; where they are depends on the outputs and the config only; and a
configured position is taken unless it overlaps an output that was placed before. -/
theorem reposition_outputs
    (hconnectors : ((s.allOutputs newOutput).map (·.name.connector)).Nodup)
    -- What the space reports for an output covers it.
    (hcovers : ∀ o ∈ s.allOutputs newOutput,
      (outputSize o).w ≤ (geometrySize o).w ∧ (outputSize o).h ≤ (geometrySize o).h)
    (hs : repositionOutputs geometrySize config newOutput s = t) :
    t.globalSpace.outputs = t.sortedOutputs ∧ t.sortedOutputs.Perm (s.allOutputs newOutput) ∧
      (t.globalSpace.Pairwise fun a b => (outputRect a).overlaps (outputRect b) = false) ∧
      (t.globalSpace.Pairwise fun a b =>
        (outputGeometry geometrySize a).overlaps (outputRect b) = false) ∧
      ((∀ o ∈ s.allOutputs newOutput, geometrySize o = outputSize o) →
        t.globalSpace.Pairwise fun a b =>
          (outputGeometry geometrySize a).overlaps (outputGeometry geometrySize b) = false) ∧
      (∀ u newOutput', (s.allOutputs newOutput).Perm (u.allOutputs newOutput') →
        (repositionOutputs geometrySize config newOutput' u).globalSpace = t.globalSpace ∧
          (repositionOutputs geometrySize config newOutput' u).sortedOutputs = t.sortedOutputs) ∧
      repositionOutputs geometrySize config none t = t ∧
      ∀ before output position after, t.globalSpace = before ++ (output, position) :: after →
        ∀ p, configuredPosition config output = some p →
          (∀ o ∈ before, (outputGeometry geometrySize o).overlaps (outputRect (output, p)) = false) →
          position = p := by
  have hnodup := nodup_of_connectors hconnectors
  have hspec := repositionOutputs_spec geometrySize config hnodup
  rw [hs] at hspec
  obtain ⟨hspace, hsorted⟩ := hspec
  have hperm := sortOutputs_perm config (s.allOutputs newOutput)
  have houtputs : t.globalSpace.outputs = t.sortedOutputs := by
    rw [hspace, outputs_settle, hsorted]
    rfl
  have hclear : t.globalSpace.Pairwise fun a b =>
      (outputGeometry geometrySize a).overlaps (outputRect b) = false := hspace ▸ settle_clear _
  have hmem : ∀ o ∈ t.globalSpace, o.1 ∈ s.allOutputs newOutput := by
    intro o ho
    rw [← hperm.mem_iff, ← hsorted, ← houtputs]
    exact List.mem_map_of_mem ho
  refine ⟨houtputs, hsorted ▸ hperm, ?_, hclear, fun hsize => ?_, fun u newOutput' hu => ?_,
    repositionOutputs_idem hconnectors hs, fun before output position after heq p hp hfree => ?_⟩
  · refine hclear.imp_of_mem fun {a b} ha _ hab => ?_
    obtain ⟨hw, hh⟩ := hcovers a.1 (hmem a ha)
    exact overlaps_mono hab rfl hw hh
  · refine hclear.imp_of_mem fun {a b} _ hb hab => ?_
    have hrect : outputGeometry geometrySize b = outputRect b :=
      congrArg (Rectangle.mk b.2) (hsize b.1 (hmem b hb))
    rw [hrect]
    exact hab
  · obtain ⟨huspace, husorted⟩ := repositionOutputs_spec geometrySize config
      (hu.nodup_iff.mp hnodup)
    rw [huspace, husorted, hspace, hsorted, sortOutputs_congr hu hconnectors]
    exact ⟨rfl, rfl⟩
  · rw [settle_position _ before output position after (hspace ▸ heq), hp]
    exact newPosition_configured hfree

/-- A screen of the given size. -/
def testOutput (handle : ℕ) (connector : String) (viewSize : Layout.Size) : Output :=
  ⟨handle, ⟨connector, none, none, none⟩, 1, .normal, viewSize, ⟨⟨0, 0⟩, viewSize⟩⟩

/-- Two outputs; the first one is mapped, and the second one is new and configured on top of it. -/
def testState : State :=
  ⟨[(testOutput 0 "DP-1" ⟨1920, 1080⟩, ⟨40, 7⟩)], [], false, []⟩

def newTestOutput : Output := testOutput 1 "DP-2" ⟨1280, 720⟩

def testConfig : List OutputConfig :=
  [{ OutputConfig.default with name := "DP-2", position := some ⟨100, 100⟩ }]

theorem reposition_outputs_two : ∃ t,
    repositionOutputs outputSize testConfig (some newTestOutput) testState = t ∧
      t.globalSpace.outputs = t.sortedOutputs ∧ repositionOutputs outputSize testConfig none t = t ∧
      t.globalSpace.Pairwise fun a b => (outputRect a).overlaps (outputRect b) = false := by
  have hconnectors : ((testState.allOutputs (some newTestOutput)).map (·.name.connector)).Nodup := by
    decide
  obtain ⟨t, ht⟩ : ∃ t, repositionOutputs outputSize testConfig (some newTestOutput) testState = t :=
    ⟨_, rfl⟩
  obtain ⟨houtputs, -, hclear, -, -, -, hidem, -⟩ :=
    reposition_outputs hconnectors (fun o _ => ⟨le_rfl, le_rfl⟩) ht
  exact ⟨t, ht, houtputs, hidem, hclear⟩

/-! Sizes that are not whole, which the space rounds up. -/

def ceilSize (output : Output) : Layout.ISize := ⟨⌈output.viewSize.w⌉, ⌈output.viewSize.h⌉⟩

/-- A screen of 1920 by 1080 pixels at a scale of 1.75. -/
def scaledOutput (handle : ℕ) (connector : String) : Output :=
  { testOutput handle connector ⟨7680 / 7, 4320 / 7⟩ with scale := 7 / 4 }

/-- Two of them side by side. -/
def scaledConfig (x₁ x₂ : ℤ) : List OutputConfig :=
  [{ OutputConfig.default with name := "DP-1", position := some ⟨x₁, 0⟩ },
    { OutputConfig.default with name := "DP-2", position := some ⟨x₂, 0⟩ }]

/-- The second one is added. -/
def scaledRun (x₁ x₂ : ℤ) : State :=
  repositionOutputs ceilSize (scaledConfig x₁ x₂) (some (scaledOutput 1 "DP-2"))
    ⟨[(scaledOutput 0 "DP-1", ⟨0, 0⟩)], [], false, []⟩

theorem globalSpace_scaledRun {x₁ x₂ : ℤ}
    (hconfig : [scaledOutput 0 "DP-1", scaledOutput 1 "DP-2"].Pairwise fun a b =>
      (compare (configuredPosition (scaledConfig x₁ x₂) a).isNone
        (configuredPosition (scaledConfig x₁ x₂) b).isNone).isLE = true) :
    (scaledRun x₁ x₂).globalSpace =
      settle ceilSize (scaledConfig x₁ x₂) [] [scaledOutput 0 "DP-1", scaledOutput 1 "DP-2"] := by
  have hname : List.Pairwise
      (fun a b : Output => (OutputName.compare a.name b.name).isLE = true)
      [scaledOutput 0 "DP-1", scaledOutput 1 "DP-2"] := by decide +kernel
  unfold scaledRun
  rw [(repositionOutputs_spec _ _ (by decide +kernel)).1]
  unfold sortOutputs
  refine congrArg _ ((congrArg (List.mergeSort · _) (List.mergeSort_of_pairwise hname)).trans ?_)
  exact List.mergeSort_of_pairwise hconfig

/-- An output may reach into the one that was placed before it, as the space reports them; and one that
is clear of the output before it, by their own sizes, may be moved. -/
theorem scaled_outputs_overlap :
    (¬ (scaledRun 1097 0).globalSpace.Pairwise fun a b =>
      (outputGeometry ceilSize a).overlaps (outputGeometry ceilSize b) = false) ∧
    configuredPosition (scaledConfig 0 1097) (scaledOutput 1 "DP-2") = some ⟨1097, 0⟩ ∧
    (outputRect (scaledOutput 0 "DP-1", ⟨0, 0⟩)).overlaps
      (outputRect (scaledOutput 1 "DP-2", ⟨1097, 0⟩)) = false ∧
    (scaledRun 0 1097).globalSpace =
      [(scaledOutput 0 "DP-1", ⟨0, 0⟩), (scaledOutput 1 "DP-2", ⟨1098, 0⟩)] := by
  rw [globalSpace_scaledRun (by decide +kernel), globalSpace_scaledRun (by decide +kernel)]
  decide +kernel

end Placement

end Niri

end Macniri

import Macniri.Layout.Reconnect

/-! Matching an output by its name: the target is sliced by the byte lengths of the fields. -/
namespace Macniri.NiriConfig

open Option List

open Layout (OutputName eqIgnoreAsciiCase)

/-! Texts as characters, measured in bytes. -/

/-- `str::len`. -/
def byteLen (text : List Char) : ℕ := (text.map Char.utf8Size).sum

/-- The text before and from a byte index; `none` past the end and inside of a character. -/
def splitAtByte : ℕ → List Char → Option (List Char × List Char)
  | 0, text => some ([], text)
  | _ + 1, [] => none
  | len + 1, c :: text =>
    if c.utf8Size ≤ len + 1 then
      (splitAtByte (len + 1 - c.utf8Size) text).map fun (front, rest) => (c :: front, rest)
    else none

/-- `text.get(..len)`. -/
def getTo (text : List Char) (len : ℕ) : Option (List Char) := (splitAtByte len text).map (·.1)

/-- `&text[len..]`, which panics if the index is not on a character boundary. -/
def sliceFrom (text : List Char) (len : ℕ) : Option (List Char) := (splitAtByte len text).map (·.2)

variable {text front rest field target : List Char} {len : ℕ}

theorem splitAtByte_eq_some : splitAtByte len text = some (front, rest) ↔
    text = front ++ rest ∧ byteLen front = len := by
  induction text generalizing len front with
  | nil =>
    cases len with
    | zero =>
      constructor
      · intro h
        obtain ⟨rfl, rfl⟩ := pair_inj h
        exact ⟨rfl, rfl⟩
      · rintro ⟨h, -⟩
        obtain ⟨rfl, rfl⟩ := append_eq_nil_iff.mp h.symm
        rfl
    | succ len =>
      constructor
      · intro h
        cases h
      · rintro ⟨h, hlen⟩
        obtain ⟨rfl, rfl⟩ := append_eq_nil_iff.mp h.symm
        cases hlen
  | cons c text ih =>
    have hpos := c.utf8Size_pos
    cases len with
    | zero =>
      constructor
      · intro h
        obtain ⟨rfl, rfl⟩ := pair_inj h
        exact ⟨rfl, rfl⟩
      · rintro ⟨h, hlen⟩
        cases front with
        | nil => exact congrArg (fun rest => some ([], rest)) h
        | cons d front =>
          obtain ⟨rfl, -⟩ := List.cons.inj h
          rw [byteLen, map_cons, sum_cons] at hlen
          omega
    | succ len =>
      rw [splitAtByte]
      constructor
      · intro h
        split at h
        · rename_i hle
          obtain ⟨⟨front', rest'⟩, hsplit, h⟩ := of_map h
          obtain ⟨rfl, rfl⟩ := Prod.mk.inj h
          obtain ⟨rfl, hlen⟩ := ih.mp hsplit
          refine ⟨rfl, ?_⟩
          rw [byteLen, map_cons, sum_cons]
          unfold byteLen at hlen
          omega
        · cases h
      · rintro ⟨h, hlen⟩
        cases front with
        | nil => cases hlen
        | cons d front =>
          obtain ⟨rfl, rfl⟩ := List.cons.inj h
          rw [byteLen, map_cons, sum_cons] at hlen
          have hrest : byteLen front = len + 1 - c.utf8Size := by
            unfold byteLen
            omega
          rw [if_pos (by omega), ih.mpr ⟨rfl, hrest⟩]
          rfl

theorem utf8Size_toLower (c : Char) : c.toLower.utf8Size = c.utf8Size := by
  have hone (d : Char) (h : d.val.toNat ≤ 127) : d.utf8Size = 1 := by
    unfold Char.utf8Size
    exact if_pos (UInt32.le_iff_toNat_le.mpr h)
  unfold Char.toLower
  split
  · rename_i hupper
    have hle : c.val.toNat ≤ 90 := UInt32.le_iff_toNat_le.mp hupper.2
    have hlow : (c.val + ('a'.val - 'A'.val)).toNat = c.val.toNat + 32 := by
      have hdiff : ('a'.val - 'A'.val).toNat = 32 := by decide
      rw [UInt32.toNat_add, hdiff]
      omega
    rw [hone c (by omega), hone _ (by dsimp only; omega)]
  · rfl

theorem byteLen_toLower (text : List Char) : byteLen (text.map Char.toLower) = byteLen text := by
  unfold byteLen
  rw [List.map_map]
  exact congrArg List.sum (map_congr_left fun c _ => utf8Size_toLower c)

theorem byteLen_congr (h : front.map Char.toLower = field.map Char.toLower) :
    byteLen front = byteLen field := by
  rw [← byteLen_toLower front, h, byteLen_toLower]

/-- Strip a field and the space after it; the inner option is empty if the target does not match,
the outer one if a slice panics. -/
def stripBytes (field target : List Char) : Option (Option (List Char)) :=
  match getTo target (byteLen field) with
  | none => some none
  | some targetField => do
    let rest ← sliceFrom target (byteLen field)
    if targetField.map Char.toLower ≠ field.map Char.toLower then some none
    else if rest.head? ≠ some ' ' then some none
    else (sliceFrom rest 1).map some

/-- `OutputName::matches`, by bytes; `none` if it panics. -/
def matchesBytes (n : OutputName) (target : String) : Option Bool :=
  -- Match by connector.
  if eqIgnoreAsciiCase target n.connector then some true
  -- If no other fields are available, don't try to match by them.
  else if n.missingMms then some false
  else do
    match ← stripBytes (n.make.getD "Unknown").toList target.toList with
    | none => some false
    | some rest =>
      match ← stripBytes (n.model.getD "Unknown").toList rest with
      | none => some false
      | some rest => some (rest.map Char.toLower == (n.serial.getD "Unknown").toList.map Char.toLower)

/-- Slicing by bytes does not panic, and finds what slicing by characters does. -/
theorem stripBytes_eq (field target : List Char) :
    stripBytes field target = some (OutputName.stripField field target) := by
  -- The bytes of the field are a prefix of the target if its characters are.
  have hstart (h : (target.take field.length).map Char.toLower = field.map Char.toLower) :
      splitAtByte (byteLen field) target = some (target.take field.length, target.drop field.length) :=
    splitAtByte_eq_some.mpr ⟨(take_append_drop ..).symm, byteLen_congr h⟩
  unfold stripBytes getTo sliceFrom OutputName.stripField
  cases hsplit : splitAtByte (byteLen field) target with
  | none =>
    rw [if_neg fun h => ?_]
    · rfl
    · rw [hstart h] at hsplit
      cases hsplit
  | some parts =>
    obtain ⟨front, rest⟩ := parts
    obtain ⟨rfl, hlen⟩ := splitAtByte_eq_some.mp hsplit
    dsimp only [map_some, bind_eq_bind, bind_some]
    by_cases hsame : front.map Char.toLower = field.map Char.toLower
    · have hlength : field.length = front.length := by
        simpa using (congrArg List.length hsame).symm
      rw [if_neg (not_not.mpr hsame), hlength, take_left, drop_left, if_pos hsame]
      cases rest with
      | nil => rfl
      | cons c rest =>
        by_cases hblank : c = ' '
        · subst hblank
          have hone : splitAtByte 1 (' ' :: rest) = some ([' '], rest) :=
            splitAtByte_eq_some.mpr ⟨rfl, rfl⟩
          rw [hone]
          rfl
        · rw [head?_cons, if_pos fun h => hblank (some.inj h)]
          split
          · rename_i hcons
            exact absurd (List.cons.inj hcons).1 hblank
          · rfl
    · rw [if_pos hsame, if_neg fun h => ?_]
      have hfront := hstart h
      rw [hsplit] at hfront
      obtain ⟨hfront, -⟩ := pair_inj hfront
      exact hsame (hfront ▸ h)

theorem matchesBytes_eq (n : OutputName) (target : String) :
    matchesBytes n target = some (n.matches target) := by
  unfold matchesBytes OutputName.matches
  split
  · rfl
  · split
    · rfl
    · rw [stripBytes_eq, bind_eq_bind, bind_some]
      cases OutputName.stripField (n.make.getD "Unknown").toList target.toList with
      | none => rfl
      | some rest =>
        dsimp only
        rw [stripBytes_eq, bind_some]
        cases OutputName.stripField (n.model.getD "Unknown").toList rest with
        | none => rfl
        | some rest => rfl

/-- A target matches exactly if it is the connector, or the make, model and serial, up to ASCII case. -/
theorem matchesBytes_spec (n : OutputName) (target : String) :
    (∃ b, matchesBytes n target = some b ∧
      (b = true ↔ eqIgnoreAsciiCase target n.connector = true ∨
        ((n.make.isSome || n.model.isSome || n.serial.isSome) = true ∧
          eqIgnoreAsciiCase target n.formatMakeModelSerial = true))) ∧
    matchesBytes n n.formatMakeModelSerialOrConnector = some true := by
  have hmissing : n.missingMms = false ↔
      (n.make.isSome || n.model.isSome || n.serial.isSome) = true := by
    unfold OutputName.missingMms
    cases n.make <;> cases n.model <;> cases n.serial <;> simp
  refine ⟨⟨_, matchesBytes_eq n target, ?_⟩, ?_⟩
  · rw [OutputName.matches_iff, hmissing]
  · rw [matchesBytes_eq, OutputName.matches_format]

end Macniri.NiriConfig

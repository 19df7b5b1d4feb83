import Mathlib.Data.List.Nodup
import Shading.Material.Params
import Shading.Proofs.Defines.Canonical
import Shading.Proofs.Defines.Lookup
import Shading.Proofs.Json.RoundTrip

/-! Settings, define sets and descriptions of materials are read back from their texts. -/

namespace Shading

namespace Json

/-- Units of whole characters denote the text that they were taken from. -/
theorem textOf?_unitsOf (text : String) : textOf? (unitsOf text) = some text := by
  -- Only a half of a character has no text, and a text has none.
  have whole : ∀ cs : List Char, characters? (cs.map .scalar) = some cs := by
    intro cs
    induction cs with
    | nil => rfl
    | cons c cs ih => simp [characters?, ih]
  simp [textOf?, unitsOf, whole]

/-- A string has the text that it was made from. -/
@[simp] theorem text?_ofText (text : String) : (ofText text).text? = some text :=
  -- The units of a string are those of the text.
  textOf?_unitsOf text

/-- Items that are read back one by one are read back as a list. -/
theorem mapM_map_of_back {α β : Type} {read : α → Option β} {write : β → α}
    (back : ∀ item, read (write item) = some item) (list : List β) :
    (list.map write).mapM read = some list := by
  -- Each item is read back on its own, so that none stops the reader.
  induction list with
  | nil => rfl
  | cons first more ih => simp [back, ih]

/-- An object has the members that it was made from. -/
@[simp] theorem members?_record (list : List (String × Json)) :
    (record list).members? = some list :=
  -- A member is a key and a value, and the key is a text.
  mapM_map_of_back (fun entry => by simp [textOf?_unitsOf]) list

/-- A record of all fields has the members that it was made from as its fields. -/
theorem fields?_record {names : List String} (distinct : names.Nodup) {list : List (String × Json)}
    (all : list.map (·.1) = names) :
    (record list).fields? names = some list := by
  -- No name occurs twice, so that each field is found once at the most.
  have once : ∀ name, list.countP (·.1 == name) ≤ 1 := by
    intro name
    have count := List.nodup_iff_count_le_one.mp distinct name
    rwa [List.count, ← all, List.countP_map] at count
  have object : (record list).fields? names = (record list).members?.bind fun members =>
      if names.all fun name => members.countP (·.1 == name) ≤ 1 then some members else none := rfl
  simp [object, once]

end Json

/-- The settings of a JSON value that was made from settings are these. -/
theorem Config.ofJson?_toJson (config : Config) : ofJson? config.toJson = some config := by
  -- The version is a word of 16 bits, and so within the bounds that are checked.
  have below : config.glslVersion.toNat < UInt16.size := config.glslVersion.toNat_lt
  -- No profile is written as `null`, which no text is.
  have profile : Json.nullable? Json.text? ((config.glslProfile.map Json.ofText).getD .null) =
      some config.glslProfile := by
    cases config.glslProfile with
    | none => rfl
    | some name =>
      have text : Json.nullable? Json.text? (.ofText name) = ((Json.ofText name).text?).map some :=
        rfl
      simp [text]
  rw [ofJson?, toJson, Json.fields?_record (show fieldNames.Nodup by decide) rfl]
  simp [List.lookup_cons, Json.orElse?, Json.below?, Json.bool?, below, profile]

/-- The define set of a JSON value that was made from a define set is this one. -/
theorem Defines.ofJson?_toJson (defines : Defines) : ofJson? defines.toJson = some defines := by
  have same : ofList defines.entries = defines := by
    -- No key occurs twice, so that the last value of a key is its first one.
    refine ext_get? fun key => ?_
    rw [get?_ofList, lookup_reverse defines.nodup_keys, get?]
  rw [ofJson?, toJson, Json.members?_record, Option.bind_eq_bind, Option.bind_some,
    Json.mapM_map_of_back fun entry => ?back]
  case back => simp
  simp [same]

/-- The description of a JSON value that was made from a description is this one. -/
theorem MaterialParams.ofJson?_toJson (params : MaterialParams) :
    ofJson? params.toJson = some params := by
  -- The fields are found under their names, and each of them is read back.
  rw [ofJson?, toJson, Json.fields?_record (show fieldNames.Nodup by decide) rfl]
  simp [List.lookup_cons, Json.orElse?, Defines.ofJson?_toJson]

/-- Define sets are plain JSON values. -/
theorem Defines.isPlain_toJson (defines : Defines) : defines.toJson.IsPlain := by
  -- Every value of a define is a string.
  refine .record fun entry member => ?_
  obtain ⟨⟨key, value⟩, -, rfl⟩ := List.mem_map.mp member
  exact .ofText value

/-- What was made into JSON is read back from the compact text as an equal value: settings,
descriptions of materials, and define sets. -/
theorem serialized_reads_back :
    (∀ config : Config, Config.ofText config.toJson.compact = .ok config) ∧
    (∀ params : MaterialParams,
      (Json.parse? params.toJson.compact).bind MaterialParams.ofJson? = some params) ∧
    ∀ defines : Defines,
      (Json.parse? defines.toJson.compact).bind Defines.ofJson? = some defines := by
  refine ⟨?config, ?params, ?defines⟩
  -- Settings and descriptions are records of plain values, as are define sets.
  case config =>
    intro config
    have plain : config.toJson.IsPlain := by
      refine .record ?_
      simp only [List.forall_mem_cons]
      refine ⟨.ofText _, .natural _, ?_, .bool _, by simp⟩
      -- The profile is the only field that may be missing.
      cases config.glslProfile with
      | none => exact .null
      | some name => exact .ofText name
    simp [Config.ofText, Json.parse?_compact plain, Config.ofJson?_toJson]
  case params =>
    intro params
    have plain : params.toJson.IsPlain := by
      refine .record ?_
      simp only [List.forall_mem_cons]
      exact ⟨.ofText _, params.defines.isPlain_toJson, by simp⟩
    rw [Json.parse?_compact plain, Option.bind_some, MaterialParams.ofJson?_toJson]
  case defines =>
    intro defines
    rw [Json.parse?_compact defines.isPlain_toJson, Option.bind_some, Defines.ofJson?_toJson]

end Shading

import OntoSchema.Document.Configuration
import OntoSchema.Proofs.Omission

/-!
# Configurations without the keys that keep their defaults

A document without the keys whose values are the defaults is read as the same configuration, with
one exception (`read_without_defaults_iff`). The settings of an operation have another default
inside `PathSettings` than on their own: an operation that is enabled by default is switched off by
a document that has its settings without the key `enabled`.
-/

namespace OntoSchema

open Json

variable {omitted : List String → Bool}

theorem preserved_textOrNull (missing : Option String) :
    Preserved textOrNull (nullable? string?) missing :=
  .of_read (fun _ text => by cases text <;> rfl) fun text => by cases text <;> rfl

theorem preserved_textsOrNull (missing : Option (List String)) :
    Preserved (.ofOption .strings) (nullable? (list? string?)) missing := by
  refine .of_read (fun _ texts => by cases texts <;> rfl) fun texts => ?_
  cases texts with
  | none => rfl
  | some texts =>
    have hread : list? string? (.strings texts) = some texts := mapM_map_eq_some fun _ _ => rfl
    exact congrArg (Option.map some) hread

theorem SchemaOptions.preserved : Preserved toJson ofJson? ({} : SchemaOptions) := by
  intro omitted options h
  have hrecord := record?_without keys omitted (rfl : options.toJson = _) (by simp)
  have hflag (key : String) {flag missing : Bool}
      (hvalue : options.toJson.at? [key] = some (.bool flag))
      (hdefault : (toJson {}).at? [key] = some (.bool missing)) :=
    (preserved_bool missing).field h key hvalue hdefault
  simp only [ofJson?, hrecord, Option.bind_eq_bind, Option.bind_some,
    hflag "follow_references" rfl rfl, hflag "use_inheritance_references" rfl rfl,
    hflag "default_descriptions" rfl rfl, hflag "default_properties" rfl rfl,
    hflag "always_generate_arrays" rfl rfl, hflag "required_properties_from_cardinality" rfl rfl,
    hflag "fix_singular_plural_property_names" rfl rfl,
    (preserved_strings _).field h "description_properties" rfl rfl]
  rfl

theorem MarkdownSection.ofJson?_toJson (entry : MarkdownSection) :
    ofJson? entry.toJson = some entry := rfl

theorem AnnotationRoles.preserved : Preserved toJson ofJson? ({} : AnnotationRoles) := by
  intro omitted roles h
  have hrecord := record?_without ["read_only", "write_only", "example", "markdown"] omitted
    (rfl : roles.toJson = _) (by simp)
  simp only [ofJson?, hrecord, Option.bind_eq_bind, Option.bind_some,
    (preserved_string _).field h "read_only" rfl rfl,
    (preserved_string _).field h "write_only" rfl rfl,
    (preserved_string _).field h "example" rfl rfl,
    (preserved_list _ MarkdownSection.ofJson?_toJson).field h "markdown" rfl rfl]
  rfl

theorem AnnotationRoles.preserved_orNull :
    Preserved (.ofOption toJson) (nullable? ofJson?) (some ({} : AnnotationRoles)) := by
  intro omitted roles? h
  cases roles? with
  | none => rfl
  | some roles => exact congrArg (Option.map some) (preserved omitted roles h)

theorem ClassPolicy.preserved : Preserved toJson ofJson? ({} : ClassPolicy) := by
  intro omitted policy h
  have hrecord := record?_without keys omitted (rfl : policy.toJson = _) (by simp)
  simp only [ofJson?, hrecord, Option.bind_eq_bind, Option.bind_some,
    (preserved_strings _).field h "allow_operations" rfl rfl,
    (preserved_strings _).field h "deny_operations" rfl rfl,
    (preserved_textOrNull _).field h "key_name" rfl rfl,
    (preserved_textOrNull _).field h "path_suffix" rfl rfl,
    (preserved_textOrNull _).field h "collection_name" rfl rfl]
  rfl

namespace OperationSettings

/-- The settings without the flag of the operation, which then reads as switched off. -/
def withoutFlag (settings : OperationSettings) (lost : Bool) : OperationSettings :=
  { settings with enabled := settings.enabled && !lost }

theorem withoutFlag_eq_self_iff {settings : OperationSettings} {lost : Bool} :
    settings.withoutFlag lost = settings ↔ lost = true → settings.enabled = false := by
  obtain ⟨enabled, keyName, pathSuffix⟩ := settings
  cases lost <;> cases enabled <;> simp [withoutFlag]

@[simp] theorem withoutFlag_false (settings : OperationSettings) :
    settings.withoutFlag false = settings :=
  withoutFlag_eq_self_iff.2 nofun

/-- A missing flag reads as false, whatever the default of the settings is. -/
theorem rereads {missing : OperationSettings} (hkey : missing.keyName = none)
    (hsuffix : missing.pathSuffix = none) :
    Rereads toJson ofJson? missing fun omitted settings =>
      settings.withoutFlag (omitted ["enabled"]) := by
  refine ⟨fun omitted settings h => ?_, withoutFlag_false⟩
  obtain ⟨enabled, keyName, pathSuffix⟩ := missing
  obtain rfl : keyName = none := hkey
  obtain rfl : pathSuffix = none := hsuffix
  have hrecord := record?_without keys omitted (rfl : settings.toJson = _) (by simp)
  have hflag : withDefault false bool? (settings.toJson.remaining? omitted "enabled") =
      some (settings.enabled && !omitted ["enabled"]) := by
    unfold remaining?
    cases omitted ["enabled"] with
    | false => exact congrArg some (Bool.and_true _).symm
    | true => exact congrArg some (Bool.and_false _).symm
  simp only [ofJson?, hrecord, Option.bind_eq_bind, Option.bind_some, hflag,
    (preserved_textOrNull none).field h "key_name" rfl rfl,
    (preserved_textOrNull none).field h "path_suffix" rfl rfl]
  rfl

end OperationSettings

namespace PathSettings

/-- The settings without the flags of some operations. -/
def withoutFlags (paths : PathSettings) (lost : Operation → Bool) : PathSettings :=
  { paths with
    getAll := paths.getAll.withoutFlag (lost .getAll)
    getByKey := paths.getByKey.withoutFlag (lost .getByKey)
    postSingle := paths.postSingle.withoutFlag (lost .postSingle)
    postBulk := paths.postBulk.withoutFlag (lost .postBulk)
    putByKey := paths.putByKey.withoutFlag (lost .putByKey)
    putBulk := paths.putBulk.withoutFlag (lost .putBulk)
    deleteByKey := paths.deleteByKey.withoutFlag (lost .deleteByKey)
    searchByPost := paths.searchByPost.withoutFlag (lost .searchByPost) }

theorem settings_withoutFlags (paths : PathSettings) (lost : Operation → Bool)
    (operation : Operation) :
    (paths.withoutFlags lost).settings operation =
      (paths.settings operation).withoutFlag (lost operation) := by
  cases operation <;> rfl

/-- Settings are known by those of each operation and by the three texts. -/
theorem ext_settings {first second : PathSettings}
    (h : ∀ operation, first.settings operation = second.settings operation)
    (hkey : first.keyName = second.keyName) (hbulk : first.bulkPathSuffix = second.bulkPathSuffix)
    (hsearch : first.searchPathSuffix = second.searchPathSuffix) : first = second := by
  cases first
  cases second
  simp only [PathSettings.mk.injEq]
  exact ⟨h .getAll, h .getByKey, h .postSingle, h .postBulk, h .putByKey, h .putBulk,
    h .deleteByKey, h .searchByPost, hkey, hbulk, hsearch⟩

theorem withoutFlags_eq_self_iff {paths : PathSettings} {lost : Operation → Bool} :
    paths.withoutFlags lost = paths ↔
      ∀ operation, lost operation = true → (paths.settings operation).enabled = false := by
  refine ⟨fun h operation => ?_, fun h => ext_settings (fun operation => ?_) rfl rfl rfl⟩
  · have hsettings := settings_withoutFlags paths lost operation
    rw [h] at hsettings
    exact OperationSettings.withoutFlag_eq_self_iff.1 hsettings.symm
  · rw [settings_withoutFlags]
    exact OperationSettings.withoutFlag_eq_self_iff.2 (h operation)

theorem withoutFlags_false (paths : PathSettings) :
    (paths.withoutFlags fun _ => false) = paths :=
  withoutFlags_eq_self_iff.2 nofun

/-- Whether the flag of an operation is left out and its settings are not. -/
def flagLost (omitted : List String → Bool) (operation : Operation) : Bool :=
  !omitted [operation.key] && omitted [operation.key, "enabled"]

theorem rereads : Rereads toJson ofJson? ({} : PathSettings) fun omitted paths =>
    paths.withoutFlags (flagLost omitted) := by
  refine ⟨fun omitted paths h => ?_, withoutFlags_false⟩
  have hrecord := record?_without (operationKeys ++ textKeys) omitted
    (rfl : paths.toJson = _) (by simp)
  have hsettings (key : String) {settings missing : OperationSettings}
      (hvalue : paths.toJson.at? [key] = some settings.toJson)
      (hdefault : (toJson {}).at? [key] = some missing.toJson)
      (hkey : missing.keyName = none) (hsuffix : missing.pathSuffix = none) :
      withDefault missing OperationSettings.ofJson? (paths.toJson.remaining? omitted key) =
        some (settings.withoutFlag (!omitted [key] && omitted [key, "enabled"])) := by
    rw [(OperationSettings.rereads hkey hsuffix).field h key hvalue hdefault]
    cases omitted [key] with
    | false => rfl
    | true => exact congrArg some settings.withoutFlag_false.symm
  simp only [ofJson?, hrecord, Option.bind_eq_bind, Option.bind_some,
    hsettings "get_all" rfl rfl rfl rfl, hsettings "get_by_key" rfl rfl rfl rfl,
    hsettings "post_single" rfl rfl rfl rfl, hsettings "post_bulk" rfl rfl rfl rfl,
    hsettings "put_by_key" rfl rfl rfl rfl, hsettings "put_bulk" rfl rfl rfl rfl,
    hsettings "delete_by_key" rfl rfl rfl rfl, hsettings "search_by_post" rfl rfl rfl rfl,
    (preserved_string _).field h "key_name" rfl rfl,
    (preserved_string _).field h "bulk_path_suffix" rfl rfl,
    (preserved_string _).field h "search_path_suffix" rfl rfl]
  rfl

end PathSettings

namespace Configuration

/-- Whether a document keeps the settings of an operation but not their flag. -/
def flagLost (omitted : List String → Bool) (operation : Operation) : Bool :=
  !omitted ["paths"] && PathSettings.flagLost (under "paths" omitted) operation

theorem rereads : Rereads toJson ofJson? ({} : Configuration) fun omitted configuration =>
    { configuration with paths := configuration.paths.withoutFlags (flagLost omitted) } := by
  refine ⟨fun omitted configuration h => ?_, fun configuration => ?_⟩
  · have hrecord := record?_without
      ["schema", "annotations", "paths", "paths_for_class", "classes"] omitted
      (rfl : configuration.toJson = _) (by simp)
    have hpaths : withDefault {} PathSettings.ofJson?
        (configuration.toJson.remaining? omitted "paths") =
          some (configuration.paths.withoutFlags (flagLost omitted)) := by
      rw [PathSettings.rereads.field h "paths" rfl rfl]
      unfold flagLost
      cases omitted ["paths"] with
      | false => rfl
      | true => exact congrArg some configuration.paths.withoutFlags_false.symm
    simp only [ofJson?, hrecord, Option.bind_eq_bind, Option.bind_some, hpaths,
      SchemaOptions.preserved.field h "schema" rfl rfl,
      AnnotationRoles.preserved_orNull.field h "annotations" rfl rfl,
      ClassPolicy.preserved.map.field h "paths_for_class" rfl rfl,
      (preserved_textsOrNull _).field h "classes" rfl rfl]
    rfl
  · have hpaths : configuration.paths.withoutFlags (flagLost fun _ => false) =
        configuration.paths := configuration.paths.withoutFlags_false
    rw [hpaths]

/-- A configuration written with all its fields is read back. -/
theorem ofJson?_toJson (configuration : Configuration) :
    ofJson? configuration.toJson = some configuration := by
  have hread := rereads.of_agreesAt _ configuration (agreesAt_none _ _)
  rw [without_none, rereads.of_none] at hread
  exact hread

theorem at?_flag (configuration : Configuration) (operation : Operation) :
    configuration.toJson.at? ["paths", operation.key, "enabled"] =
      some (.bool (configuration.paths.settings operation).enabled) := by
  cases operation <;> rfl

/-- A flag that may be left out has its default. -/
theorem enabled_of_flagLost {configuration : Configuration} {operation : Operation}
    (h : AgreesAt omitted configuration.toJson ({} : Configuration).toJson)
    (hlost : flagLost omitted operation = true) :
    (configuration.paths.settings operation).enabled =
      (({} : PathSettings).settings operation).enabled := by
  have homitted : omitted ["paths", operation.key, "enabled"] = true :=
    (Bool.and_eq_true_iff.1 (Bool.and_eq_true_iff.1 hlost).2).2
  have hflag := h _ homitted _ (configuration.at?_flag operation)
  rw [at?_flag] at hflag
  exact (Json.bool.inj (Option.some.inj hflag)).symm

/-- A configuration without keys that have their defaults is read with some operations switched
off, and is read back just when no operation that is enabled by default loses its flag alone. The
keys may be those of records at any depth; there are no defaults for policies to agree with. -/
theorem read_without_defaults_iff (configuration : Configuration) (omitted : List String → Bool)
    (h : AgreesAt omitted configuration.toJson ({} : Configuration).toJson) :
    ofJson? (configuration.toJson.without omitted) =
        some { configuration with paths := configuration.paths.withoutFlags (flagLost omitted) } ∧
      (ofJson? (configuration.toJson.without omitted) = some configuration ↔
        ∀ operation, flagLost omitted operation = true →
          (({} : PathSettings).settings operation).enabled = false) := by
  have hread := rereads.of_agreesAt omitted configuration h
  have hsame : ({ configuration with
      paths := configuration.paths.withoutFlags (flagLost omitted) } : Configuration) =
        configuration ↔
      configuration.paths.withoutFlags (flagLost omitted) = configuration.paths :=
    ⟨fun he => congrArg paths he, fun he => by rw [he]⟩
  refine ⟨hread, ?_⟩
  rw [hread, Option.some_inj, hsame, PathSettings.withoutFlags_eq_self_iff]
  exact forall_congr' fun operation => forall_congr' fun hlost => by
    rw [enabled_of_flagLost h hlost]

/-- The search has a suffix and the keys a name of their own, and trees can only be listed. -/
def orchard : Configuration where
  paths := { searchByPost := { pathSuffix := some "find" }, keyName := "tag" }
  policies := .ofList [("Tree", { allowOperations := ["get_all"] })]

theorem read_without_defaults_iff_orchard :
    ofJson? (orchard.toJson.without [["schema"], ["annotations", "example"], ["paths", "get_all"],
      ["paths", "search_by_post", "enabled"], ["classes"]].contains) = some orchard := by
  refine (read_without_defaults_iff orchard _ fun place homitted found hfound => ?_).2.2
    fun operation hlost => ?_
  · simp only [List.contains_iff_mem, List.mem_cons, List.not_mem_nil, or_false] at homitted
    rcases homitted with rfl | rfl | rfl | rfl | rfl <;> exact hfound
  · revert hlost
    cases operation <;> decide

/-- The settings of an operation without `enabled`, which is true by default, switch it off. -/
theorem get_all_switched_off :
    AgreesAt [["paths", "get_all", "enabled"]].contains ({} : Configuration).toJson
        ({} : Configuration).toJson ∧
      ofJson? (({} : Configuration).toJson.without [["paths", "get_all", "enabled"]].contains) =
        some { paths := { getAll := { enabled := false } } } ∧
      ({ paths := { getAll := { enabled := false } } } : Configuration) ≠ {} :=
  ⟨fun _ _ _ h => h, rfl, by decide⟩

end Configuration

end OntoSchema

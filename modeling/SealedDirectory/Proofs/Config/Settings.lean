import SealedDirectory.Config.Settings
import SealedDirectory.Proofs.Json.Composed
import SealedDirectory.Proofs.Json.Edited

/-!
# Settings that were edited by hand

A file of settings may lose any of its fields and gain others: what is left counts, and
what is gone has its usual value.  The costs of passwords are an object in that file.  It
may go as a whole, but none of its own fields may, since these have no usual values: of a
file in which one is missing the first missing one is reported, and nothing is read.
-/

namespace SealedDirectory

open Json Json.Reader

theorem Role.readsBack_codec
    (role : Role)
    (layout : Layout)
    (depth : Nat) :
    Role.codec.ReadsBack layout depth role := by
  have code : Codec.int64.ReadsBack layout depth role.code := by
    apply Codec.readsBack_int64
    cases role <;> constructor <;> decide
  exact Codec.readsBack_guarded code (by rw [Role.ofCode?_code])

namespace Settings

/-! ## What is written for settings -/

/-- Costs as the values of the fields of their document. -/
def costRow (costs : Argon2.Costs) : Row [UInt32, UInt32, UInt32] :=
  (costs.memory, costs.time, costs.lanes, ())

def row (settings : Settings) : Row [UInt32, String, Argon2.Costs, Role] :=
  (settings.layout, settings.logFilter, settings.costs, settings.role, ())

def ofCostRow : Row [UInt32, UInt32, UInt32] → Argon2.Costs :=
  fun (memory, time, lanes, ()) => { memory, time, lanes }

def ofRow : Row [UInt32, String, Argon2.Costs, Role] → Settings :=
  fun (layout, logFilter, costs, role, ()) => { layout, logFilter, costs, role }

theorem readsBack_costFields
    (costs : Argon2.Costs)
    (layout : Layout)
    (depth : Nat) :
    costFields.ReadsBack layout depth (costRow costs) :=
  ⟨Codec.readsBack_word32 _ _ _, Codec.readsBack_word32 _ _ _, Codec.readsBack_word32 _ _ _,
    trivial⟩

theorem nodup_costFields : costFields.names.Nodup := by
  decide

theorem nodup_fields : fields.names.Nodup := by
  decide

theorem readsBack_fields
    {layout : Layout}
    (loose : layout.Loose)
    (settings : Settings)
    (depth : Nat) :
    fields.ReadsBack layout (depth + 2) settings.row := by
  have costs : costsCodec.ReadsBack layout (depth + 2) settings.costs :=
    Codec.readsBack_record loose nodup_costFields
      (readsBack_costFields settings.costs layout (depth + 1)) rfl
  exact ⟨Codec.readsBack_word32 _ _ _, Codec.readsBack_text _ _ _, costs,
    Role.readsBack_codec _ _ _, trivial⟩

/-! ## Edited files -/

/-- What may stand for a field of costs: what was written for it. -/
def WritesCost
    (costs : Argon2.Costs)
    (name : String)
    (value : List Char) :
    Prop :=
  ∃ level document, (name, document) ∈ costFields.write (costRow costs) ∧
    value = chars .pretty level document

/--
What may stand for a field of settings: what was written for it, and for the costs an
object of which some fields are left.
-/
inductive Writes
    (settings : Settings)
    (costNames : List String) :
    String → List Char → Prop
  | alone
      {name : String}
      {document : Json}
      (level : Nat)
      (noCosts : name ≠ "password")
      (member : (name, document) ∈ fields.write settings.row) :
      Writes settings costNames name (chars .pretty level document)
  | costs
      {members : List Member}
      {within : List Char}
      (edited : Json.Edited costFields.names (WritesCost settings.costs) costNames members)
      (blank : Blank within) :
      Writes settings costNames "password" (objectChars members within)

/--
A file of settings that was edited: the fields that are left are those of some names, and
in the costs, if they are left, those of some other names.
-/
inductive Edited
    (settings : Settings)
    (names costNames : List String) :
    String → Prop
  | mk
      {members : List Member}
      {before within after : List Char}
      (edited : Json.Edited fields.names (settings.Writes costNames) names members)
      (blankBefore : Blank before)
      (blankWithin : Blank within)
      (blankAfter : Blank after) :
      Edited settings names costNames
        (String.ofList (before ++ (objectChars members within ++ after)))

/-- A file as it was written has all its fields left. -/
theorem edited_text (settings : Settings) :
    settings.Edited fields.names costFields.names settings.text := by
  have blankGap : Blank [' '] := by simp [Blank, isSpace]
  have costs : Json.Edited costFields.names (WritesCost settings.costs) costFields.names
      ((costFields.write (costRow settings.costs)).map (printedMember .pretty [' '] 2)) :=
    Fields.edited_write Layout.loose_pretty blankGap nodup_costFields
      fun pair member => ⟨2, pair.2, member, rfl⟩
  have written : ∀ pair ∈ fields.write settings.row,
      settings.Writes costFields.names pair.1 (chars .pretty 1 pair.2) := by
    rintro ⟨name, document⟩ member
    by_cases isCosts : name = "password"
    · subst isCosts
      have isDocument : document = costsCodec.write settings.costs := by
        simpa [fields, row, Fields.write] using member
      have braces : chars .pretty 1 (costsCodec.write settings.costs) =
          objectChars ((costFields.write (costRow settings.costs)).map
            (printedMember .pretty [' '] 2)) (Layout.pretty.lineBreak 1) :=
        chars_object_eq rfl 1 _ _
      rw [isDocument, braces]
      exact .costs costs (Layout.loose_pretty.lineBreak 1)
    · exact .alone 1 isCosts member
  have edited : Json.Edited fields.names (settings.Writes costFields.names) fields.names
      ((fields.write settings.row).map (printedMember .pretty [' '] 1)) :=
    Fields.edited_write Layout.loose_pretty blankGap nodup_fields written
  have printed : chars .pretty 0 (codec.write settings) =
      objectChars ((fields.write settings.row).map (printedMember .pretty [' '] 1))
        (Layout.pretty.lineBreak 0) :=
    chars_object_eq rfl 0 _ _
  have whole := Edited.mk edited blank_nil (Layout.loose_pretty.lineBreak 0) blank_nil
  rw [List.nil_append, List.append_nil, ← printed] at whole
  exact whole

/-! ## Reading them -/

/-- The settings that are left, with their usual values in the place of the others. -/
def mended
    (settings : Settings)
    (names : List String) :
    Settings where
  layout := if "schema_version" ∈ names then settings.layout else usual.layout
  logFilter := if "log_filter" ∈ names then settings.logFilter else usual.logFilter
  costs := if "password" ∈ names then settings.costs else usual.costs
  role := if "default_role" ∈ names then settings.role else usual.role

theorem mended_names (settings : Settings) :
    settings.mended fields.names = settings :=
  rfl

/-- The first field of costs that is not among the names that are left. -/
def missingCost? (costNames : List String) : Option String :=
  costFields.names.find? fun name => name ∉ costNames

/-- The fault to be expected at a field of settings. -/
def fault?
    (costNames : List String)
    (name : String) :
    Option Cause :=
  if name = "password" then (missingCost? costNames).map .missingField else none

theorem strict_costFields : costFields.Strict :=
  ⟨rfl, rfl, rfl, rfl, rfl, rfl, trivial⟩

theorem complete_costFields
    (costs : Argon2.Costs)
    (costNames : List String) :
    costFields.complete (costFields.held (costRow costs) costNames) =
      ((missingCost? costNames).map .missingField).elim (.ok (costRow costs)) .error :=
  Fields.complete_held_of_strict strict_costFields (costRow costs) costNames

theorem complete_fields
    (settings : Settings)
    (names : List String) :
    fields.complete (fields.held settings.row names) = .ok (settings.mended names).row := by
  simp only [fields, row, mended, Fields.held]
  split_ifs <;> rfl

/-- Costs of which some fields are left are read if none of them is missing. -/
theorem gives_costs
    {costs : Argon2.Costs}
    {costNames : List String}
    {members : List Member}
    {blanks within : List Char}
    (edited : Json.Edited costFields.names (WritesCost costs) costNames members)
    (blank : Blank blanks)
    (blankWithin : Blank within)
    (depth : Nat)
    (rest : List Char) :
    (costsCodec.read (depth + 2)).Gives (blanks ++ (objectChars members within ++ rest))
      (((missingCost? costNames).map .missingField).elim (.ok costs) .error) rest := by
  have reads (name : String) (value : List Char) (written : WritesCost costs name value) :
      costFields.Reads (depth + 1) (fun _ => none) (costRow costs) name value := by
    obtain ⟨level, document, member, rfl⟩ := written
    exact Fields.reads_of_mem_write nodup_costFields (readsBack_costFields costs .pretty _) member
      rfl level
  have gives : (costsCodec.read (depth + 2)).Gives (blanks ++ (objectChars members within ++ rest))
      ((costNames.findSome? fun _ => none).elim
        (ofCostRow <$> costFields.complete (costFields.held (costRow costs) costNames)) .error)
      rest :=
    edited.gives_record nodup_costFields reads blank blankWithin rest
  have sound : (costNames.findSome? fun _ => none : Option Cause) = none := by simp
  rw [sound, complete_costFields] at gives
  cases missing : missingCost? costNames with
  | none =>
      rw [missing] at gives
      exact gives
  | some name =>
      rw [missing] at gives
      exact gives

/-- What may stand for a field of settings is read, unless a field of costs is missing. -/
theorem reads_of_writes
    {settings : Settings}
    {costNames : List String}
    {name : String}
    {value : List Char}
    (written : settings.Writes costNames name value)
    (depth : Nat) :
    fields.Reads (depth + 2) (fault? costNames) settings.row name value := by
  cases written with
  | alone level noCosts member =>
      exact Fields.reads_of_mem_write nodup_fields (readsBack_fields Layout.loose_pretty settings _)
        member (if_neg noCosts) level
  | costs edited blankWithin =>
      have noLayout : "password" ≠ "schema_version" := by decide
      have noFilter : "password" ≠ "log_filter" := by decide
      simp only [fields, row, Fields.Reads, noLayout, noFilter, if_false, if_true]
      intro blanks rest blank delimited
      rw [fault?, if_pos rfl]
      exact gives_costs edited blank blankWithin depth rest

theorem findSome?_fault?
    (names costNames : List String) :
    names.findSome? (fault? costNames) =
      if "password" ∈ names then (missingCost? costNames).map .missingField else none := by
  induction names with
  | nil => rfl
  | cons name names ih =>
      rw [List.findSome?_cons, ih, fault?]
      by_cases same : name = "password"
      · subst same
        rw [if_pos rfl, if_pos (List.mem_cons_self ..)]
        cases missingCost? costNames with
        | none => simp
        | some missing => rfl
      · rw [if_neg same, if_congr (List.mem_cons.trans (or_iff_right (Ne.symm same))) rfl rfl]

section

variable
  {settings : Settings}
  {names costNames : List String}
  {text : String}

/-- An edited file comes to the settings that are left, unless a field of costs is missing. -/
theorem Edited.gives
    (edited : settings.Edited names costNames text) :
    ∃ after, Blank after ∧
      (codec.read depthLimit).Gives text.toList
        ((if "password" ∈ names then (missingCost? costNames).map .missingField else none).elim
          (.ok (settings.mended names)) .error) after := by
  obtain @⟨members, before, within, after, edited, blankBefore, blankWithin, blankAfter⟩ := edited
  have gives : (codec.read depthLimit).Gives (before ++ (objectChars members within ++ after))
      ((names.findSome? (fault? costNames)).elim
        (ofRow <$> fields.complete (fields.held settings.row names)) .error) after :=
    edited.gives_record nodup_fields (fun name value written => reads_of_writes written 125)
      blankBefore blankWithin after
  rw [findSome?_fault?, complete_fields] at gives
  rw [String.toList_ofList]
  exact ⟨after, blankAfter, gives⟩

theorem Edited.ofFile?_eq_ok
    (edited : settings.Edited names costNames text)
    (whole : "password" ∈ names → missingCost? costNames = none) :
    ofFile? (some text) = .ok (settings.mended names) := by
  obtain ⟨after, blank, gives⟩ := edited.gives
  have sound : (if "password" ∈ names then (missingCost? costNames).map Cause.missingField
      else none) = none := by
    by_cases member : "password" ∈ names
    · rw [if_pos member, whole member]
      rfl
    · exact if_neg member
  rw [sound] at gives
  have read : codec.decode text = .ok (settings.mended names) := onText_eq_ok_of_blank gives blank
  show (codec.decode text).mapError _ = _
  rw [read]
  rfl

theorem Edited.ofFile?_eq_error
    {name : String}
    (edited : settings.Edited names costNames text)
    (member : "password" ∈ names)
    (missing : missingCost? costNames = some name) :
    ∃ place, ofFile? (some text) =
      .error (.config (.badSettings ⟨.missingField name, some place⟩)) := by
  obtain ⟨after, blank, gives⟩ := edited.gives
  rw [if_pos member, missing] at gives
  obtain ⟨place, read⟩ : ∃ place, codec.decode text = .error ⟨.missingField name, some place⟩ :=
    Fails.onText gives
  refine ⟨place, ?_⟩
  show (codec.decode text).mapError _ = _
  rw [read]
  rfl

end

theorem missingCost?_eq_none_iff (costNames : List String) :
    missingCost? costNames = none ↔ costFields.names ⊆ costNames := by
  simp [missingCost?, List.subset_def]

/--
A file of settings is read back as it was written.  If fields were taken away from it and
foreign ones added, what is left counts and the rest has its usual values, provided that
the costs of passwords are gone or still whole.  If the costs are there without one of their
fields, the file is refused, and the first field that is missing is named.
-/
theorem files_of_settings_keep_loading_with_whole_costs
    (settings : Settings) :
    ofFile? (some settings.text) = .ok settings ∧
      ∀ names costNames text, settings.Edited names costNames text →
        (("password" ∈ names → costFields.names ⊆ costNames) →
          ofFile? (some text) = .ok (settings.mended names)) ∧
        ∀ name, "password" ∈ names → missingCost? costNames = some name →
          ∃ place, ofFile? (some text) =
            .error (.config (.badSettings ⟨.missingField name, some place⟩)) := by
  constructor
  · rw [settings.edited_text.ofFile?_eq_ok fun _ => by decide, mended_names]
  · intro names costNames text edited
    constructor
    · intro whole
      apply edited.ofFile?_eq_ok
      exact fun member => (missingCost?_eq_none_iff costNames).mpr (whole member)
    · intro name
      exact edited.ofFile?_eq_error

/-- A file with one setting and a foreign field loads; one with empty costs does not. -/
theorem file_with_a_foreign_field_loads :
    ofFile? (some "\x7b\"default_role\":2,\"theme\":null\x7d") = .ok { usual with role := .admin } ∧
      ∃ place, ofFile? (some "\x7b\"password\":\x7b\x7d\x7d") =
        .error (.config (.badSettings ⟨.missingField "memory_cost", some place⟩)) := by
  have spaced (field : String × Json) : (printedMember .compact [] 0 field).Spaced :=
    spaced_printedMember Layout.loose_compact blank_nil 0 field
  have one : ({ usual with role := .admin } : Settings).Edited ["default_role"] []
      "\x7b\"default_role\":2,\"theme\":null\x7d" := by
    have isRole : ("default_role", Json.integer 2) ∈
        fields.write ({ usual with role := .admin } : Settings).row :=
      .tail _ (.tail _ (.tail _ (.head _)))
    have edited : Json.Edited fields.names
        (({ usual with role := .admin } : Settings).Writes []) ["default_role"]
        [printedMember .compact [] 0 ("default_role", .integer 2),
          printedMember .compact [] 0 ("theme", .null)] :=
      .left (spaced _) (spells_escaped "default_role".toList) (.alone 0 (by decide) isRole)
        (by simp)
        (.foreign (spaced _) (spells_escaped "theme".toList) (by decide) .null .nil)
    exact .mk edited blank_nil blank_nil blank_nil
  have two : usual.Edited ["password"] [] "\x7b\"password\":\x7b\x7d\x7d" := by
    have edited : Json.Edited fields.names (usual.Writes []) ["password"]
        [printedMember .compact [] 0 ("password", .object [])] :=
      .left (spaced _) (spells_escaped "password".toList) (.costs .nil blank_nil) (by simp) .nil
    exact .mk edited blank_nil blank_nil blank_nil
  have loads := files_of_settings_keep_loading_with_whole_costs { usual with role := .admin }
  have refuses := files_of_settings_keep_loading_with_whole_costs usual
  exact ⟨(loads.2 _ _ _ one).1 (by decide), (refuses.2 _ _ _ two).2 "memory_cost" (by decide) rfl⟩

/--
Without the line of one cost a file that was written is refused, although every setting has
a usual value.
-/
theorem file_without_its_memory_cost_is_refused :
    usual.text = "\n".intercalate
      ["\x7b",
        "  \"schema_version\": 1,",
        "  \"log_filter\": \"warn\",",
        "  \"password\": \x7b",
        "    \"memory_cost\": 19456,",
        "    \"time_cost\": 2,",
        "    \"parallelism\": 1",
        "  \x7d,",
        "  \"default_role\": 1",
        "\x7d"] ∧
      ofFile? (some ("\n".intercalate
        ["\x7b",
          "  \"schema_version\": 1,",
          "  \"log_filter\": \"warn\",",
          "  \"password\": \x7b",
          "    \"time_cost\": 2,",
          "    \"parallelism\": 1",
          "  \x7d,",
          "  \"default_role\": 1",
          "\x7d"])) =
        .error (.config (.badSettings ⟨.missingField "memory_cost", some ⟨7, 3⟩⟩)) := by
  decide +kernel

end Settings

end SealedDirectory

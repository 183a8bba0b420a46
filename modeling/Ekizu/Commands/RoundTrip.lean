import Ekizu.Commands.ApplicationCommand
import Ekizu.Components.Slots

/-!
# Application commands through JSON

What a command is after it was encoded and decoded.  The decoders read fewer members than
the encoders write, and every choice as one with a text.

## Main results

* `restores_list`, `deserialize_list` — a list comes back exactly if its elements do.
* `ApplicationCommandOption.restores_iff` — which options come back, at any depth.
* `commands_restore_iff` — options and commands.
* `restores_channelOption` — an option that does not, and another.
-/

namespace Ekizu.Commands

open Components Lib Lib.Json

/-! ## Members -/

/-- The value is encoded, and decoded again as it was. -/
def Restores {A : Type} [Value A] (a : A) : Prop := (Value.write a).bind Value.get = some a

section

variable {A : Type} {puts : List (String × Put)} {key : String} {out : Json}

/-- What is read of a member that was written. -/
theorem deserialize_written [Member A] {a : A} (h : writeAll .null puts = some out)
    (hkeys : (puts.map Prod.fst).Nodup) (hmem : (key, serialize a) ∈ puts) :
    ∃ w, Member.put a .null = some w ∧
      deserialize (A := A) out key = Member.take (w.getD .null) := by
  obtain ⟨w, hput, hget⟩ := get_written h hkeys hmem
  refine ⟨w, hput, ?_⟩
  rw [deserialize, hget]
  rfl

variable [Value A]

/-- The elements of a list are encoded and decoded one by one. -/
theorem restores_list {as : List A} {js : List Json} (h : as.mapM Value.write = some js) :
    js.mapM Value.get = some as ↔ ∀ a ∈ as, Restores a := by
  induction as generalizing js with
  | nil =>
      obtain rfl := Option.some.inj h
      simp
  | cons a as ih =>
      rw [List.mapM_cons] at h
      obtain ⟨j, hj, htail⟩ := Option.bind_eq_some_iff.mp h
      obtain ⟨rest, hrest, hjs⟩ := Option.bind_eq_some_iff.mp htail
      obtain rfl := Option.some.inj hjs
      rw [List.mapM_cons, List.forall_mem_cons, ← ih hrest, Restores, hj]
      cases hget : Value.get (A := A) j with
      | none => simp [hget]
      | some a' =>
          cases hrests : rest.mapM (Value.get (A := A)) with
          | none => simp [hget]
          | some as' => simp [hget]

/-- **A list under a key** comes back exactly if its elements do. -/
theorem deserialize_list {as : Option (List A)} (h : writeAll .null puts = some out)
    (hkeys : (puts.map Prod.fst).Nodup) (hmem : (key, serialize as) ∈ puts) :
    deserialize out key = some as ↔ ∀ list ∈ as, ∀ a ∈ list, Restores a := by
  obtain ⟨w, hput, htake⟩ := deserialize_written h hkeys hmem
  rw [htake]
  cases as with
  | none =>
      obtain rfl := Option.some.inj hput
      simp [Member.take, Json.isNull]
  | some list =>
      obtain ⟨v, hwrite, rfl⟩ := Option.map_eq_some_iff.mp hput
      obtain ⟨js, hjs, rfl⟩ := Option.map_eq_some_iff.mp hwrite
      have hread : Member.take (A := Option (List A)) (.array js) =
          (js.mapM Value.get).map some := rfl
      rw [Option.getD_some, hread, Option.map_eq_some_iff]
      simp only [Option.some.injEq, exists_eq_right, Option.mem_def, forall_eq']
      exact restores_list hjs

end

section

variable {puts : List (String × Put)} {key : String} {out : Json}

/-- A member that comes back as it was. -/
theorem deserialize_plain {A : Type} [Member A] {a : A} (h : writeAll .null puts = some out)
    (hkeys : (puts.map Prod.fst).Nodup) (hmem : (key, serialize a) ∈ puts)
    (hplain : ∀ w, Member.put a .null = some w → Member.take (w.getD .null) = some a) :
    deserialize out key = some a := by
  obtain ⟨w, hput, htake⟩ := deserialize_written h hkeys hmem
  rw [htake, hplain w hput]

theorem take_text {s : String} (w : Option Json) (h : Member.put s .null = some w) :
    Member.take (w.getD .null) = some s := by
  obtain rfl := Option.some.inj h
  rfl

/-- The texts of a map are the texts of an object. -/
theorem getTexts_written (entries : List (String × String)) :
    getTexts (entries.map fun e => (e.1, .string e.2)) = some entries := by
  induction entries with
  | nil => rfl
  | cons e entries ih =>
      rw [getTexts] at ih
      simp [getTexts, ih]

theorem take_localizations {m : Option Localizations} (w : Option Json)
    (h : Member.put m .null = some w) : Member.take (w.getD .null) = some m := by
  cases m with
  | none =>
      obtain rfl := Option.some.inj h
      rfl
  | some m =>
      obtain rfl := Option.some.inj h
      show ((getTexts (m.entries.map fun e => (e.1, .string e.2))).map
        fun entries => SortedMap.insertAll ∅ entries).map some = some (some m)
      rw [getTexts_written, Option.map_some, Option.map_some, SortedMap.insertAll_entries]

/-- A flag that is not written is decoded as one that is not set. -/
theorem deserialize_flag {flag : Bool} (h : writeAll .null puts = some out)
    (hkeys : (puts.map Prod.fst).Nodup) (hmem : (key, serializeFlag flag) ∈ puts) :
    deserialize out key = some flag := by
  obtain ⟨w, hput, hget⟩ := get_written h hkeys hmem
  obtain rfl := Option.some.inj hput
  rw [deserialize, hget]
  cases flag <;> rfl

variable [FloatCast]

theorem readType_written {type default_ : UInt8} (h : writeAll .null puts = some out)
    (hkeys : (puts.map Prod.fst).Nodup) (hmem : ("type", serialize type) ∈ puts) :
    readType default_ out = some type := by
  obtain ⟨w, hput, hget⟩ := get_written h hkeys hmem
  obtain rfl := Option.some.inj hput
  rw [Option.getD_some, Json.get] at hget
  unfold readType
  cases hfound : out.find? "type" with
  | none =>
      rw [hfound] at hget
      cases hget
  | some v =>
      rw [hfound] at hget
      obtain rfl : v = .unsigned type.toUInt64 := hget
      exact getNumber_code id type

end

/-! ## Choices -/

section

variable [FloatCast]

omit [FloatCast] in
theorem exists_value (v : ApplicationCommandOptionChoiceValue) : ∃ w, v.put .null = some w := by
  cases v with
  | string s => exact ⟨_, rfl⟩
  | integer i => exact ⟨_, rfl⟩
  | double q => exact ⟨_, rfl⟩

/-- The value is a text. -/
def ApplicationCommandOptionChoice.Kept (c : ApplicationCommandOptionChoice) : Prop :=
  ∃ s, c.value = .string s

omit [FloatCast] in
theorem ApplicationCommandOptionChoice.exists_toJson (c : ApplicationCommandOptionChoice) :
    ∃ out, c.toJson = some out := by
  have hkeys : ["name", "name_localizations", "value"].Nodup := by decide
  refine exists_writeAll_null hkeys ?_
  simp only [List.forall_mem_cons]
  exact ⟨⟨_, rfl⟩, exists_serializeOptional_iff.mpr fun m _ => ⟨_, rfl⟩, exists_value c.value,
    nofun⟩

omit [FloatCast] in
/-- **A choice comes back** exactly if its value is a text. -/
theorem ApplicationCommandOptionChoice.restores_iff (c : ApplicationCommandOptionChoice) :
    Restores c ↔ c.Kept := by
  have hkeys : ["name", "name_localizations", "value"].Nodup := by decide
  obtain ⟨out, hwrite⟩ := c.exists_toJson
  have hname : deserialize out "name" = some c.name :=
    deserialize_plain hwrite hkeys (.head _) take_text
  have hlocalizations : deserialize out "name_localizations" = some c.nameLocalizations :=
    deserialize_plain hwrite hkeys (.tail _ (.head _)) take_localizations
  obtain ⟨w, hput, hget⟩ := get_written hwrite hkeys (.tail _ (.tail _ (.head _)))
  have hvalue : deserialize (A := String) out "value" = Member.take (w.getD .null) := by
    rw [deserialize, hget]
    rfl
  show (c.toJson.bind fromJson) = some c ↔ _
  rw [hwrite, Option.bind_some]
  unfold fromJson Kept
  rw [hname, hlocalizations, hvalue]
  obtain ⟨name, nameLocalizations, value⟩ := c
  cases value with
  | string s =>
      obtain rfl := Option.some.inj hput
      exact iff_of_true rfl ⟨s, rfl⟩
  | integer i =>
      obtain rfl := Option.some.inj hput
      refine iff_of_false ?_ ?_
      · rintro ⟨⟩
      · rintro ⟨s, ⟨⟩⟩
  | double q =>
      obtain rfl := Option.some.inj hput
      refine iff_of_false ?_ ?_
      · rintro ⟨⟩
      · rintro ⟨s, ⟨⟩⟩

end

/-! ## Options -/

namespace ApplicationCommandOption

section

variable [FloatCast]

/-- The members of an option. -/
def puts (o : ApplicationCommandOption) : List (String × Put) :=
  [("type", serialize o.type), ("name", serialize o.name),
   ("description", serialize o.description), ("required", serializeFlag o.required),
   ("autocomplete", serializeFlag o.autocomplete),
   ("name_localizations", serialize o.nameLocalizations),
   ("description_localizations", serialize o.descriptionLocalizations),
   ("choices", serialize o.choices), ("options", serialize o.options),
   ("channel_types", serializeOptional writeCodes o.channelTypes),
   ("min_value", serializeOptional Numeric.write o.minValue),
   ("max_value", serializeOptional Numeric.write o.maxValue),
   ("min_length", serializeOptional writeInt o.minLength),
   ("max_length", serializeOptional writeInt o.maxLength)]

/-- The nested options are encoded like any other list. -/
theorem toJson_eq (o : ApplicationCommandOption) : o.toJson = writeAll .null o.puts := by
  rw [toJson, puts]
  congr
  funext j
  split
  · next hnone =>
      rw [hnone]
      rfl
  · next os hsome =>
      rw [hsome, mapM_attach]
      show _ = ((os.mapM toJson).map Json.array).map some
      rw [Option.map_map]
      rfl

theorem fromJson_eq (j : Json) : fromJson j = (do
    let type ← readType 0 j
    let name ← deserialize j "name"
    let description ← deserialize j "description"
    let required ← deserialize j "required"
    let autocomplete ← deserialize j "autocomplete"
    let nameLocalizations ← deserialize j "name_localizations"
    let descriptionLocalizations ← deserialize j "description_localizations"
    let choices ← deserialize j "choices"
    let options ← deserialize j "options"
    return { type, name, description, required, autocomplete, nameLocalizations,
             descriptionLocalizations, choices, options }) := by
  rw [fromJson]
  refine bind_congr fun type => bind_congr fun name => bind_congr fun description =>
    bind_congr fun required => bind_congr fun autocomplete => bind_congr fun nameLocalizations =>
    bind_congr fun descriptionLocalizations => bind_congr fun choices => ?_
  congr 1
  rw [deserialize]
  split
  · next hnull =>
      rw [hnull]
      rfl
  · next elements helements =>
      rw [helements, mapM_attach]
      rfl
  · next hnull harray =>
      cases hv : j.get "options" with
      | null => exact absurd hv hnull
      | array elements => exact absurd hv (harray elements)
      | boolean | unsigned | integer | float | string | object => rfl

theorem nodup_puts (o : ApplicationCommandOption) : (o.puts.map Prod.fst).Nodup := by
  show List.Nodup ["type", "name", "description", "required", "autocomplete",
    "name_localizations", "description_localizations", "choices", "options", "channel_types",
    "min_value", "max_value", "min_length", "max_length"]
  decide

/-- Every option can be encoded. -/
theorem exists_toJson (o : ApplicationCommandOption) : ∃ out, o.toJson = some out := by
  rw [toJson_eq]
  refine exists_writeAll_null o.nodup_puts ?_
  simp only [puts, List.forall_mem_cons]
  refine ⟨⟨_, rfl⟩, ⟨_, rfl⟩, ⟨_, rfl⟩, ⟨_, rfl⟩, ⟨_, rfl⟩,
    exists_serializeOptional_iff.mpr fun m _ => ⟨_, rfl⟩,
    exists_serializeOptional_iff.mpr fun m _ => ⟨_, rfl⟩, ?_, ?_, ⟨_, rfl⟩, ⟨_, rfl⟩, ⟨_, rfl⟩,
    ⟨_, rfl⟩, ⟨_, rfl⟩, nofun⟩
  · exact exists_serializeOptional_iff.mpr fun list _ =>
      exists_writeElements_iff.mpr fun c _ => c.exists_toJson
  · exact exists_serializeOptional_iff.mpr fun list hlist =>
      exists_writeElements_iff.mpr fun o' hmem => exists_toJson o'
termination_by sizeOf o
decreasing_by exact sizeOf_lt hlist hmem

end

/-- Nothing is set that the decoder leaves out, and every choice is a text, at every
depth. -/
inductive Kept : ApplicationCommandOption → Prop
  | intro {o : ApplicationCommandOption} (channelTypes : o.channelTypes = none)
      (minValue : o.minValue = none) (maxValue : o.maxValue = none)
      (minLength : o.minLength = none) (maxLength : o.maxLength = none)
      (value : o.value = .monostate) (choices : ∀ list ∈ o.choices, ∀ c ∈ list, c.Kept)
      (options : ∀ list ∈ o.options, ∀ o' ∈ list, Kept o') : Kept o

variable [FloatCast]

/-- What is decoded of an option: its lists, and what comes back in any case. -/
theorem fromJson_written {o : ApplicationCommandOption} {out : Json}
    (h : o.toJson = some out) :
    fromJson out = (do
      let choices ← deserialize out "choices"
      let options ← deserialize out "options"
      return { o with
        choices, options, channelTypes := none, minValue := none, maxValue := none,
        minLength := none, maxLength := none, value := .monostate }) := by
  rw [toJson_eq] at h
  have hkeys := o.nodup_puts
  have htype : readType 0 out = some o.type := readType_written h hkeys (by simp [puts])
  have hname : deserialize out "name" = some o.name :=
    deserialize_plain h hkeys (by simp [puts]) take_text
  have hdescription : deserialize out "description" = some o.description :=
    deserialize_plain h hkeys (by simp [puts]) take_text
  have hrequired : deserialize out "required" = some o.required :=
    deserialize_flag h hkeys (by simp [puts])
  have hautocomplete : deserialize out "autocomplete" = some o.autocomplete :=
    deserialize_flag h hkeys (by simp [puts])
  have hnames : deserialize out "name_localizations" = some o.nameLocalizations :=
    deserialize_plain h hkeys (by simp [puts]) take_localizations
  have hdescriptions :
      deserialize out "description_localizations" = some o.descriptionLocalizations :=
    deserialize_plain h hkeys (by simp [puts]) take_localizations
  rw [fromJson_eq, htype, hname, hdescription, hrequired, hautocomplete, hnames, hdescriptions]
  rfl

/-- **An option comes back** exactly if nothing of it is left out, at any depth. -/
theorem restores_iff (o : ApplicationCommandOption) : Restores o ↔ o.Kept := by
  obtain ⟨out, hwrite⟩ := o.exists_toJson
  have hkeys := o.nodup_puts
  have hmembers : writeAll .null o.puts = some out := (toJson_eq o).symm.trans hwrite
  have hchoices : deserialize out "choices" = some o.choices ↔ _ :=
    deserialize_list hmembers hkeys (by simp [puts])
  have hoptions : deserialize out "options" = some o.options ↔ _ :=
    deserialize_list hmembers hkeys (by simp [puts])
  simp only [ApplicationCommandOptionChoice.restores_iff] at hchoices
  have hnested : (∀ list ∈ o.options, ∀ o' ∈ list, Restores o') ↔
      ∀ list ∈ o.options, ∀ o' ∈ list, o'.Kept := by
    refine forall₂_congr fun list hlist => forall₂_congr fun o' hmem => ?_
    exact restores_iff o'
  rw [hnested] at hoptions
  show o.toJson.bind fromJson = some o ↔ _
  rw [hwrite, Option.bind_some, fromJson_written hwrite]
  constructor
  · intro h
    obtain ⟨choices, hchoices', h⟩ := Option.bind_eq_some_iff.mp h
    obtain ⟨options, hoptions', h⟩ := Option.bind_eq_some_iff.mp h
    have hsame := Option.some.inj h
    have hsameChoices : choices = o.choices := congrArg ApplicationCommandOption.choices hsame
    have hsameOptions : options = o.options := congrArg ApplicationCommandOption.options hsame
    rw [hsameChoices] at hchoices'
    rw [hsameOptions] at hoptions'
    exact .intro (congrArg channelTypes hsame).symm (congrArg minValue hsame).symm
      (congrArg maxValue hsame).symm (congrArg minLength hsame).symm
      (congrArg maxLength hsame).symm (congrArg value hsame).symm (hchoices.mp hchoices')
      (hoptions.mp hoptions')
  · rintro ⟨htypes, hmin, hmax, hminLength, hmaxLength, hvalue, hkeptChoices, hkeptOptions⟩
    rw [hchoices.mpr hkeptChoices, hoptions.mpr hkeptOptions]
    cases o
    subst htypes hmin hmax hminLength hmaxLength hvalue
    rfl
termination_by sizeOf o
decreasing_by exact sizeOf_lt hlist hmem

end ApplicationCommandOption

/-! ## Commands -/

namespace ApplicationCommandCreateFields

/-- Nothing is set that the decoder leaves out. -/
structure Kept (f : ApplicationCommandCreateFields) : Prop where
  nameLocalizations : f.nameLocalizations = none
  descriptionLocalizations : f.descriptionLocalizations = none
  defaultMemberPermissions : f.defaultMemberPermissions = none
  integrationTypes : f.integrationTypes = none
  contexts : f.contexts = none
  options : ∀ list ∈ f.options, ∀ o ∈ list, o.Kept

variable [FloatCast]

/-- **A command comes back** exactly if nothing of it is left out. -/
theorem restores_iff (f : ApplicationCommandCreateFields) {description : String}
    (hdescribed : f.description = some description) : Restores f ↔ f.Kept := by
  have hkeys : ["name", "type", "description", "nsfw", "name_localizations",
      "description_localizations", "options", "default_member_permissions", "integration_types",
      "contexts"].Nodup := by decide
  obtain ⟨out, hwrite⟩ : ∃ out, f.toJson = some out := by
    refine exists_writeAll_null hkeys ?_
    simp only [List.forall_mem_cons]
    refine ⟨⟨_, rfl⟩, ⟨_, rfl⟩, ⟨_, rfl⟩, ⟨_, rfl⟩,
      exists_serializeOptional_iff.mpr fun m _ => ⟨_, rfl⟩,
      exists_serializeOptional_iff.mpr fun m _ => ⟨_, rfl⟩, ?_,
      exists_serializeOptional_iff.mpr fun s _ => ⟨_, rfl⟩, ⟨_, rfl⟩, ⟨_, rfl⟩, nofun⟩
    exact exists_serializeOptional_iff.mpr fun list _ =>
      exists_writeElements_iff.mpr fun o _ => o.exists_toJson
  have hmembers := hwrite
  unfold toJson at hmembers
  have hname : deserialize out "name" = some f.name :=
    deserialize_plain hmembers hkeys (by simp) take_text
  have htype : readType 1 out = some f.type := readType_written hmembers hkeys (by simp)
  have hnsfw : deserialize out "nsfw" = some f.nsfw :=
    deserialize_flag hmembers hkeys (by simp)
  have hdescription : deserialize out "description" = some f.description := by
    obtain ⟨w, hput, hget⟩ := get_written hmembers hkeys (.tail _ (.tail _ (.head _)))
    obtain rfl := Option.some.inj hput
    rw [deserialize, hget, hdescribed]
    rfl
  have hoptions : deserialize out "options" = some f.options ↔ _ :=
    deserialize_list hmembers hkeys (by simp)
  simp only [ApplicationCommandOption.restores_iff] at hoptions
  have hdecoded : fromJson out = (do
      let options ← deserialize out "options"
      return { f with
        options, nameLocalizations := none, descriptionLocalizations := none,
        defaultMemberPermissions := none, integrationTypes := none, contexts := none }) := by
    rw [fromJson, hname, htype, hnsfw, hdescription]
    rfl
  show f.toJson.bind fromJson = some f ↔ _
  rw [hwrite, Option.bind_some, hdecoded]
  constructor
  · intro h
    obtain ⟨options, hoptions', h⟩ := Option.bind_eq_some_iff.mp h
    have hsame := Option.some.inj h
    have hsameOptions : options = f.options :=
      congrArg ApplicationCommandCreateFields.options hsame
    rw [hsameOptions] at hoptions'
    exact ⟨(congrArg nameLocalizations hsame).symm,
      (congrArg descriptionLocalizations hsame).symm,
      (congrArg defaultMemberPermissions hsame).symm, (congrArg integrationTypes hsame).symm,
      (congrArg contexts hsame).symm, hoptions.mp hoptions'⟩
  · rintro ⟨hnames, hdescriptions, hpermissions, htypes, hcontexts, hkept⟩
    rw [hoptions.mpr hkept]
    cases f
    subst hnames hdescriptions hpermissions htypes hcontexts
    rfl

end ApplicationCommandCreateFields

section

variable [FloatCast]

/-- **Application commands decode what they encode**, options at any depth and commands
with a description, exactly where nothing is set that the decoders leave out and every
choice is a text. -/
theorem commands_restore_iff :
    (∀ o : ApplicationCommandOption, Restores o ↔ o.Kept) ∧
      ∀ (f : ApplicationCommandCreateFields) (description : String),
        f.description = some description → (Restores f ↔ f.Kept) := by
  constructor
  · exact ApplicationCommandOption.restores_iff
  · intro f description hdescribed
    exact f.restores_iff hdescribed

end

/-- A command with a subcommand, whose option has a choice of a text. -/
def searchCommand : ApplicationCommandCreateFields :=
  { name := "search"
    description := some "Search the archive"
    options := some [
      { type := 1, name := "by", description := "What to look at"
        options := some [
          { type := 3, name := "order", description := "What comes first", required := true
            nameLocalizations := some ⟨[("de", "reihenfolge")], by simp⟩
            choices := some [{ name := "newest", value := .string "desc" }] }] }] }

theorem restores_searchCommand :
    letI : FloatCast := ⟨fun _ => 0⟩
    Restores searchCommand := by
  let : FloatCast := ⟨fun _ => 0⟩
  refine (commands_restore_iff.2 searchCommand "Search the archive" rfl).mpr
    ⟨rfl, rfl, rfl, rfl, rfl, ?_⟩
  rintro _ ⟨⟩ o ho
  obtain rfl := List.mem_singleton.mp ho
  refine .intro rfl rfl rfl rfl rfl rfl (by rintro _ ⟨⟩) ?_
  rintro _ ⟨⟩ o' ho'
  obtain rfl := List.mem_singleton.mp ho'
  refine .intro rfl rfl rfl rfl rfl rfl ?_ (by rintro _ ⟨⟩)
  rintro _ ⟨⟩ c hc
  obtain rfl := List.mem_singleton.mp hc
  exact ⟨"desc", rfl⟩

/-- An option for a channel of one type. -/
def channelOption : ApplicationCommandOption :=
  { type := 7, name := "channel", description := "Where to post", channelTypes := some [0] }

/-- An option with a choice of a number. -/
def numberOption : ApplicationCommandOption :=
  { type := 4, name := "count", description := "How many"
    choices := some [{ name := "one", value := .integer 1 }] }

/-- The types of the channel are not decoded, and the number is no text. -/
theorem restores_channelOption :
    letI : FloatCast := ⟨fun _ => 0⟩
    ¬ Restores channelOption ∧ ¬ Restores numberOption := by
  let : FloatCast := ⟨fun _ => 0⟩
  constructor
  · intro h
    obtain ⟨htypes, -⟩ := (ApplicationCommandOption.restores_iff _).mp h
    cases htypes
  · intro h
    obtain ⟨-, -, -, -, -, -, hchoices, -⟩ := (ApplicationCommandOption.restores_iff _).mp h
    obtain ⟨s, hs⟩ := hchoices _ rfl _ List.mem_cons_self
    cases hs

end Ekizu.Commands

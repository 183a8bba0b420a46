import Ekizu.Components.Encodable

/-!
# What a message is made from

`embed.hpp`, the parts of `message.hpp` and `attachment.hpp` that a request takes, and
`CreateMessageFields` and `EditMessageFields` of `create_message.hpp` and `edit_message.hpp`,
with their encoders.

## Main results

* `Written.exists_object_iff` — when the fields of a message make an object.
* `CreateMessageFields.written`, `EditMessageFields.written` — the fields of the two requests.
-/

namespace Ekizu.Requests

open Components Lib Lib.Json

/-- An optional member with an encoder of its own. -/
def serializeOptional {A : Type} (write : A → Option Json) : Option A → Put
  | none, _ => some none
  | some a, _ => (write a).map some

theorem serializeOptional_eq {A : Type} [Value A] (a : Option A) :
    serializeOptional Value.write a = serialize a := by
  funext j
  cases a with
  | none => rfl
  | some a => rfl

/-- A list of values with an encoder of their own. -/
def writeList {A : Type} (write : A → Option Json) (as : List A) : Option Json :=
  (as.mapM write).map .array

/-! ## Embeds -/

structure EmbedImage where
  url : Option String := none
  proxyUrl : Option String := none
  height : Option UInt16 := none
  width : Option UInt16 := none

abbrev EmbedThumbnail := EmbedImage

abbrev EmbedVideo := EmbedImage

structure EmbedProvider where
  name : Option String := none
  url : Option String := none

structure EmbedAuthor where
  name : String := ""
  url : Option String := none
  iconUrl : Option String := none
  proxyIconUrl : Option String := none

structure EmbedFooter where
  text : String := ""
  iconUrl : Option String := none
  proxyIconUrl : Option String := none

structure EmbedField where
  name : String := ""
  value : String := ""
  inline_ : Option Bool := none

structure Embed where
  title : Option String := none
  description : Option String := none
  url : Option String := none
  timestamp : Option String := none
  color : Option UInt16 := none
  footer : Option EmbedFooter := none
  image : Option EmbedImage := none
  thumbnail : Option EmbedThumbnail := none
  video : Option EmbedVideo := none
  provider : Option EmbedProvider := none
  author : Option EmbedAuthor := none
  fields : Option (List EmbedField) := none

/-! ## The rest of a message -/

structure AllowedMentions where
  parse : List String := []
  roles : List Snowflake := []
  users : List Snowflake := []
  repliedUser : Bool := false

structure MessageReference where
  messageId : Option Snowflake := none
  channelId : Option Snowflake := none
  guildId : Option Snowflake := none
  failIfNotExists : Option Bool := none

structure PartialAttachment where
  id : Option Snowflake := none
  filename : Option String := none
  description : Option String := none

/-- `CreateMessageFields`; `MessageFlags` by their number. -/
structure CreateMessageFields where
  content : Option String := none
  nonce : Option UInt64 := none
  tts : Option Bool := none
  embeds : Option (List Embed) := none
  allowedMentions : Option AllowedMentions := none
  messageReference : Option MessageReference := none
  components : Option (List MessageComponent) := none
  stickerIds : Option (List Snowflake) := none
  payloadJson : Option (List UInt8) := none
  attachments : Option (List PartialAttachment) := none
  flags : Option UInt32 := none

/-- `EditMessageFields`; `MessageFlags` by their number. -/
structure EditMessageFields where
  content : Option String := none
  embeds : Option (List Embed) := none
  flags : Option UInt32 := none
  allowedMentions : Option AllowedMentions := none
  components : Option (List MessageComponent) := none
  payloadJson : Option (List UInt8) := none
  attachments : Option (List PartialAttachment) := none

/-! ## Encoders -/

def EmbedProvider.toJson (p : EmbedProvider) : Option Json :=
  writeAll .null [("name", serialize p.name), ("url", serialize p.url)]

def EmbedAuthor.toJson (a : EmbedAuthor) : Option Json :=
  writeAll .null
    [("name", serialize a.name), ("url", serialize a.url), ("icon_url", serialize a.iconUrl),
     ("proxy_icon_url", serialize a.proxyIconUrl)]

def EmbedFooter.toJson (f : EmbedFooter) : Option Json :=
  writeAll .null
    [("text", serialize f.text), ("icon_url", serialize f.iconUrl),
     ("proxy_icon_url", serialize f.proxyIconUrl)]

def EmbedField.toJson (f : EmbedField) : Option Json :=
  writeAll .null
    [("name", serialize f.name), ("value", serialize f.value), ("inline", serialize f.inline_)]

def AllowedMentions.toJson (m : AllowedMentions) : Option Json :=
  writeAll .null
    [("parse", serialize m.parse), ("roles", serialize m.roles), ("users", serialize m.users),
     ("replied_user", serialize m.repliedUser)]

def MessageReference.toJson (r : MessageReference) : Option Json :=
  writeAll .null
    [("message_id", serialize r.messageId), ("channel_id", serialize r.channelId),
     ("guild_id", serialize r.guildId), ("fail_if_not_exists", serialize r.failIfNotExists)]

def PartialAttachment.toJson (a : PartialAttachment) : Option Json :=
  writeAll .null
    [("id", serialize a.id), ("filename", serialize a.filename),
     ("description", serialize a.description)]

section

variable [FloatCast]

def EmbedImage.toJson (i : EmbedImage) : Option Json :=
  writeAll .null
    [("url", serialize i.url), ("proxy_url", serialize i.proxyUrl),
     ("height", serialize i.height), ("width", serialize i.width)]

def Embed.toJson (e : Embed) : Option Json :=
  writeAll .null
    [("title", serialize e.title), ("description", serialize e.description),
     ("url", serialize e.url), ("timestamp", serialize e.timestamp), ("color", serialize e.color),
     ("author", serializeOptional EmbedAuthor.toJson e.author),
     ("footer", serializeOptional EmbedFooter.toJson e.footer),
     ("thumbnail", serializeOptional EmbedImage.toJson e.thumbnail),
     ("image", serializeOptional EmbedImage.toJson e.image),
     ("provider", serializeOptional EmbedProvider.toJson e.provider),
     ("video", serializeOptional EmbedImage.toJson e.video),
     ("fields", serializeOptional (writeList EmbedField.toJson) e.fields)]

namespace CreateMessageFields

/-- The members in the order in which they are written; `text` makes a JSON string of a
byte string. -/
def puts (text : List UInt8 → String) (f : CreateMessageFields) : List (String × Put) :=
  [("content", serialize f.content), ("nonce", serialize f.nonce), ("tts", serialize f.tts),
   ("embeds", serializeOptional (writeList Embed.toJson) f.embeds),
   ("allowed_mentions", serializeOptional AllowedMentions.toJson f.allowedMentions),
   ("message_reference", serializeOptional MessageReference.toJson f.messageReference),
   ("components", serializeOptional (writeList MessageComponent.toJson) f.components),
   ("sticker_ids", serialize f.stickerIds),
   ("payload_json", serialize (f.payloadJson.map text)),
   ("attachments", serializeOptional (writeList PartialAttachment.toJson) f.attachments),
   ("flags", serialize f.flags)]

def toJson (text : List UInt8 → String) (f : CreateMessageFields) : Option Json :=
  writeAll .null (f.puts text)

end CreateMessageFields

namespace EditMessageFields

/-- The members in the order in which they are written. -/
def puts (text : List UInt8 → String) (f : EditMessageFields) : List (String × Put) :=
  [("content", serialize f.content),
   ("embeds", serializeOptional (writeList Embed.toJson) f.embeds), ("flags", serialize f.flags),
   ("allowed_mentions", serializeOptional AllowedMentions.toJson f.allowedMentions),
   ("components", serializeOptional (writeList MessageComponent.toJson) f.components),
   ("payload_json", serialize (f.payloadJson.map text)),
   ("attachments", serializeOptional (writeList PartialAttachment.toJson) f.attachments)]

def toJson (text : List UInt8 → String) (f : EditMessageFields) : Option Json :=
  writeAll .null (f.puts text)

end EditMessageFields

end

/-! ## What can be encoded -/

section

variable {A : Type} {write : A → Option Json}

@[simp] theorem exists_writeList_iff {as : List A} :
    (∃ v, writeList write as = some v) ↔ ∀ a ∈ as, ∃ v, write a = some v := by
  rw [← exists_mapM_iff]
  simp [writeList]

@[simp] theorem exists_optional_iff {a : Option A} {j : Json} :
    (∃ w, serializeOptional write a j = some w) ↔ ∀ b ∈ a, ∃ v, write b = some v := by
  cases a <;> simp [serializeOptional]

end

@[simp] theorem EmbedProvider.exists_toJson (p : EmbedProvider) : ∃ out, p.toJson = some out :=
  exists_writeAll_null (by simp) (by simp)

@[simp] theorem EmbedAuthor.exists_toJson (a : EmbedAuthor) : ∃ out, a.toJson = some out :=
  exists_writeAll_null (by simp) (by simp)

@[simp] theorem EmbedFooter.exists_toJson (f : EmbedFooter) : ∃ out, f.toJson = some out :=
  exists_writeAll_null (by simp) (by simp)

@[simp] theorem EmbedField.exists_toJson (f : EmbedField) : ∃ out, f.toJson = some out :=
  exists_writeAll_null (by simp) (by simp)

@[simp] theorem AllowedMentions.exists_toJson (m : AllowedMentions) :
    ∃ out, m.toJson = some out :=
  exists_writeAll_null (by simp) (by simp)

@[simp] theorem MessageReference.exists_toJson (r : MessageReference) :
    ∃ out, r.toJson = some out :=
  exists_writeAll_null (by simp) (by simp)

@[simp] theorem PartialAttachment.exists_toJson (a : PartialAttachment) :
    ∃ out, a.toJson = some out :=
  exists_writeAll_null (by simp) (by simp)

/-- What was written of a member, if anything, and that it was there. -/
def Writes (put : Put) (present : Bool) : Prop := ∃ w, put .null = some w ∧ w.isSome = present

section

variable {A : Type}

theorem writes_optional {write : A → Option Json} {a : Option A}
    (h : ∀ b ∈ a, ∃ v, write b = some v) : Writes (serializeOptional write a) a.isSome := by
  cases a with
  | none => exact ⟨none, rfl, rfl⟩
  | some a =>
      obtain ⟨v, hv⟩ := h a rfl
      exact ⟨some v, by simp [serializeOptional, hv], rfl⟩

theorem writes_serialize [Value A] [Writable A] (a : Option A) : Writes (serialize a) a.isSome := by
  cases a with
  | none => exact ⟨none, rfl, rfl⟩
  | some a =>
      obtain ⟨v, hv⟩ := Writable.exists_write a
      exact ⟨some v, by simp [serialize, Member.put, hv], rfl⟩

/-- A text of bytes is there exactly if its string is. -/
theorem writes_text (text : List UInt8 → String) (bytes : Option (List UInt8)) :
    Writes (serialize (bytes.map text)) bytes.isSome := by
  rw [← Option.isSome_map (f := text)]
  exact writes_serialize _

/-- Members that can be written one by one. -/
theorem exists_of_writes {puts : List (String × Put)} {present : List Bool}
    (h : List.Forall₂ (fun p b => Writes p.2 b) puts present) :
    (∀ p ∈ puts, ∃ w, p.2 .null = some w) ∧
      ((∃ p ∈ puts, ∃ v, p.2 .null = some (some v)) ↔ true ∈ present) := by
  induction h with
  | nil => simp
  | @cons p b puts present hp _ ih =>
      obtain ⟨w, hput, hpresent⟩ := hp
      obtain ⟨hwrite, hiff⟩ := ih
      refine ⟨List.forall_mem_cons.mpr ⟨⟨w, hput⟩, hwrite⟩, ?_⟩
      have hfirst : (∃ v, p.2 .null = some (some v)) ↔ true = b := by
        rw [hput, ← hpresent]
        cases w <;> simp
      rw [List.mem_cons, ← hfirst, ← hiff]
      simp only [List.mem_cons, or_and_right, exists_or, exists_eq_left]

end

section

variable [FloatCast]

@[simp] theorem EmbedImage.exists_toJson (i : EmbedImage) : ∃ out, i.toJson = some out :=
  exists_writeAll_null (by simp) (by simp)

@[simp] theorem Embed.exists_toJson (e : Embed) : ∃ out, e.toJson = some out :=
  exists_writeAll_null (by simp) (by simp)

/-! ## The fields of a message -/

/-- The components can be encoded: their documents take the emoji in them. -/
def componentsEncodable (components : Option (List MessageComponent)) : Bool :=
  components.all fun list => list.all MessageComponent.encodable

omit [FloatCast] in
theorem componentsEncodable_iff {components : Option (List MessageComponent)} :
    componentsEncodable components = true ↔
      ∀ list ∈ components, ∀ c ∈ list, c.encodable = true := by
  cases components <;> simp [componentsEncodable]

/-- The members of a message have keys of their own, the components are one of them, and each
is written, exactly if it is there, where the components can be encoded. -/
structure Written (components : Option (List MessageComponent)) (puts : List (String × Put))
    (present : List Bool) : Prop where
  nodup : (puts.map Prod.fst).Nodup
  components_mem :
    ("components", serializeOptional (writeList MessageComponent.toJson) components) ∈ puts
  writes : componentsEncodable components = true →
    List.Forall₂ (fun p b => Writes p.2 b) puts present

theorem writes_components {components : Option (List MessageComponent)}
    (h : componentsEncodable components = true) :
    Writes (serializeOptional (writeList MessageComponent.toJson) components)
      components.isSome := by
  apply writes_optional
  intro list hlist
  rw [exists_writeList_iff]
  intro c hc
  exact MessageComponent.exists_toJson_iff.mpr (componentsEncodable_iff.mp h list hlist c hc)

section

variable {components : Option (List MessageComponent)} {puts : List (String × Put)}
  {present : List Bool}

/-- Only what is in the components may fail to be encoded. -/
theorem Written.encodable {out : Json} (h : Written components puts present)
    (hwrite : writeAll .null puts = some out) : componentsEncodable components = true := by
  obtain ⟨w, hput, -⟩ := get_written hwrite h.nodup h.components_mem
  rw [componentsEncodable_iff]
  intro list hlist c hc
  have hwritten := exists_optional_iff.mp ⟨w, hput⟩ list hlist
  exact MessageComponent.exists_toJson_iff.mp (exists_writeList_iff.mp hwritten c hc)

/-- **The fields make an object** exactly if one of them is set and the components can be
encoded. -/
theorem Written.exists_object_iff (h : Written components puts present) :
    (∃ out, writeAll .null puts = some out ∧ out.isObject = true) ↔
      true ∈ present ∧ componentsEncodable components = true := by
  constructor
  · rintro ⟨out, hwrite, hobject⟩
    have hencodable := h.encodable hwrite
    obtain ⟨hputs, hset⟩ := exists_of_writes (h.writes hencodable)
    obtain ⟨out', hwrite', -, hiff⟩ := writeAll_null h.nodup hputs
    obtain rfl := Option.some.inj (hwrite.symm.trans hwrite')
    exact ⟨hset.mp (hiff.mp hobject), hencodable⟩
  · rintro ⟨hpresent, hencodable⟩
    obtain ⟨hputs, hset⟩ := exists_of_writes (h.writes hencodable)
    obtain ⟨out, hwrite, -, hiff⟩ := writeAll_null h.nodup hputs
    exact ⟨out, hwrite, hiff.mpr (hset.mpr hpresent)⟩

end

namespace CreateMessageFields

/-- A field other than `payload_json` is set. -/
def isSet (f : CreateMessageFields) : Bool :=
  f.content.isSome || f.nonce.isSome || f.tts.isSome || f.embeds.isSome ||
    f.allowedMentions.isSome || f.messageReference.isSome || f.components.isSome ||
    f.stickerIds.isSome || f.attachments.isSome || f.flags.isSome

/-- The components can be encoded. -/
def Encodable (f : CreateMessageFields) : Prop := componentsEncodable f.components = true

/-- Which of the members are there, in the order in which they are written. -/
def present (f : CreateMessageFields) : List Bool :=
  [f.content.isSome, f.nonce.isSome, f.tts.isSome, f.embeds.isSome, f.allowedMentions.isSome,
   f.messageReference.isSome, f.components.isSome, f.stickerIds.isSome, f.payloadJson.isSome,
   f.attachments.isSome, f.flags.isSome]

theorem written (text : List UInt8 → String) (f : CreateMessageFields) :
    Written f.components (f.puts text) f.present where
  nodup := by
    show ["content", "nonce", "tts", "embeds", "allowed_mentions", "message_reference",
      "components", "sticker_ids", "payload_json", "attachments", "flags"].Nodup
    decide
  components_mem := by simp [puts]
  writes h := by
    simp only [puts, present, List.forall₂_cons]
    exact ⟨writes_serialize _, writes_serialize _, writes_serialize _,
      writes_optional (by simp), writes_optional (by simp), writes_optional (by simp),
      writes_components h, writes_serialize _, writes_text text _, writes_optional (by simp),
      writes_serialize _, .nil⟩

omit [FloatCast] in
theorem mem_present_iff {f : CreateMessageFields} (h : f.payloadJson = none) :
    true ∈ f.present ↔ f.isSet = true := by
  simp only [present, isSet, h, List.mem_cons, Bool.or_eq_true, eq_comm (a := true),
    List.not_mem_nil, Option.isSome_none, Bool.false_eq_true, or_false, false_or, or_assoc]

end CreateMessageFields

namespace EditMessageFields

/-- A field other than `payload_json` is set. -/
def isSet (f : EditMessageFields) : Bool :=
  f.content.isSome || f.embeds.isSome || f.flags.isSome || f.allowedMentions.isSome ||
    f.components.isSome || f.attachments.isSome

/-- The components can be encoded. -/
def Encodable (f : EditMessageFields) : Prop := componentsEncodable f.components = true

/-- Which of the members are there, in the order in which they are written. -/
def present (f : EditMessageFields) : List Bool :=
  [f.content.isSome, f.embeds.isSome, f.flags.isSome, f.allowedMentions.isSome,
   f.components.isSome, f.payloadJson.isSome, f.attachments.isSome]

theorem written (text : List UInt8 → String) (f : EditMessageFields) :
    Written f.components (f.puts text) f.present where
  nodup := by
    show ["content", "embeds", "flags", "allowed_mentions", "components", "payload_json",
      "attachments"].Nodup
    decide
  components_mem := by simp [puts]
  writes h := by
    simp only [puts, present, List.forall₂_cons]
    exact ⟨writes_serialize _, writes_optional (by simp), writes_serialize _,
      writes_optional (by simp), writes_components h, writes_text text _,
      writes_optional (by simp), .nil⟩

omit [FloatCast] in
theorem mem_present_iff {f : EditMessageFields} (h : f.payloadJson = none) :
    true ∈ f.present ↔ f.isSet = true := by
  simp only [present, isSet, h, List.mem_cons, Bool.or_eq_true, eq_comm (a := true),
    List.not_mem_nil, Option.isSome_none, Bool.false_eq_true, or_false, false_or, or_assoc]

end EditMessageFields

end

end Ekizu.Requests

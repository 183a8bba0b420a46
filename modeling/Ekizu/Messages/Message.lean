import Ekizu.Messages.Embeds
import Ekizu.Messages.Users

/-!
# Messages through JSON

`Message` of `message.hpp` with the records in it, its encoder and its decoder in
`message.cpp`, and `attachment.cpp`.

What comes back of a message that is encoded and decoded is its normal form: without the
global names of its users, without the images and providers of which nothing is set, and
with `crossposted` and `deleted` unset.  Its components come back as each of them does by
itself, and where one does not the decoder throws.

## Main results

* `Message.recode` — what comes back of any message.
* `Message.recode_eq_iff` — which messages come back as they were.
-/

namespace Ekizu.Messages

open Components Lib Lib.Json Requests

abbrev ChannelType := Enum8

abbrev MessageActivityType := Enum8

abbrev InteractionType := Enum8

abbrev MessageType := Enum8

abbrev MessageFlags := Enum32

structure Attachment where
  id : Snowflake := ⟨0⟩
  filename : String := ""
  description : String := ""
  contentType : String := ""
  size : UInt64 := 0
  url : String := ""
  proxyUrl : String := ""
  height : UInt16 := 0
  width : UInt16 := 0
  ephemeral : Bool := false

structure ChannelMention where
  id : Snowflake := ⟨0⟩
  guildId : Snowflake := ⟨0⟩
  type : ChannelType := {}
  name : String := ""

structure MessageActivity where
  type : MessageActivityType := {}
  partyId : Option String := none

structure MessageApplication where
  id : Snowflake := ⟨0⟩
  name : String := ""
  icon : Option String := none
  description : String := ""
  coverImage : Option String := none

structure MessageInteraction where
  id : Snowflake := ⟨0⟩
  type : InteractionType := {}
  name : String := ""
  user : User := {}
  member : Option PartialMember := none

structure Message where
  id : Snowflake := ⟨0⟩
  channelId : Snowflake := ⟨0⟩
  guildId : Option Snowflake := none
  author : User := {}
  content : String := ""
  timestamp : String := ""
  editedTimestamp : Option String := none
  tts : Bool := false
  mentionEveryone : Bool := false
  mentions : List User := []
  mentionRoles : List Snowflake := []
  mentionChannels : List ChannelMention := []
  attachments : List Attachment := []
  embeds : List Embed := []
  nonce : String := ""
  pinned : Bool := false
  webhookId : Snowflake := ⟨0⟩
  type : MessageType := {}
  activity : Option MessageActivity := none
  application : Option MessageApplication := none
  applicationId : Option Snowflake := none
  messageReference : MessageReference := {}
  flags : MessageFlags := {}
  referencedMessage : Snowflake := ⟨0⟩
  interaction : Option MessageInteraction := none
  components : List MessageComponent := []
  crossposted : Bool := false
  deleted : Bool := false

/-! ## Encoders and decoders -/

def MessageApplication.toJson (a : MessageApplication) : Option Json :=
  writeAll .null
    [("id", serialize a.id), ("name", serialize a.name), ("icon", serialize a.icon),
     ("description", serialize a.description), ("cover_image", serialize a.coverImage)]

def MessageApplication.fromJson (j : Json) : Option MessageApplication := do
  let id ← deserialize j "id"
  let name ← deserialize j "name"
  let icon ← deserialize j "icon"
  let description ← deserialize j "description"
  let coverImage ← deserialize j "cover_image"
  return { id, name, icon, description, coverImage }

instance : Value MessageApplication where
  write := MessageApplication.toJson
  get := MessageApplication.fromJson
  init := {}

def MessageReference.fromJson (j : Json) : Option MessageReference := do
  let messageId ← deserialize j "message_id"
  let channelId ← deserialize j "channel_id"
  let guildId ← deserialize j "guild_id"
  let failIfNotExists ← deserialize j "fail_if_not_exists"
  return { messageId, channelId, guildId, failIfNotExists }

instance : Value MessageReference where
  write := MessageReference.toJson
  get := MessageReference.fromJson
  init := {}

section

variable [FloatCast]

def Attachment.toJson (a : Attachment) : Option Json :=
  writeAll .null
    [("id", serialize a.id), ("filename", serialize a.filename),
     ("description", serialize a.description), ("content_type", serialize a.contentType),
     ("size", serialize a.size), ("url", serialize a.url), ("proxy_url", serialize a.proxyUrl),
     ("height", serialize a.height), ("width", serialize a.width),
     ("ephemeral", serialize a.ephemeral)]

def Attachment.fromJson (j : Json) : Option Attachment := do
  let id ← deserialize j "id"
  let filename ← deserialize j "filename"
  let description ← deserialize j "description"
  let contentType ← deserialize j "content_type"
  let size ← deserialize j "size"
  let url ← deserialize j "url"
  let proxyUrl ← deserialize j "proxy_url"
  let height ← deserialize j "height"
  let width ← deserialize j "width"
  let ephemeral ← deserialize j "ephemeral"
  return { id, filename, description, contentType, size, url, proxyUrl, height, width, ephemeral }

instance : Value Attachment where
  write := Attachment.toJson
  get := Attachment.fromJson
  init := {}

def ChannelMention.toJson (m : ChannelMention) : Option Json :=
  writeAll .null
    [("id", serialize m.id), ("guild_id", serialize m.guildId), ("type", serialize m.type),
     ("name", serialize m.name)]

def ChannelMention.fromJson (j : Json) : Option ChannelMention := do
  let id ← deserialize j "id"
  let guildId ← deserialize j "guild_id"
  let type ← deserialize j "type"
  let name ← deserialize j "name"
  return { id, guildId, type, name }

instance : Value ChannelMention where
  write := ChannelMention.toJson
  get := ChannelMention.fromJson
  init := {}

def MessageActivity.toJson (a : MessageActivity) : Option Json :=
  writeAll .null [("type", serialize a.type), ("party_id", serialize a.partyId)]

def MessageActivity.fromJson (j : Json) : Option MessageActivity := do
  let type ← deserialize j "type"
  let partyId ← deserialize j "party_id"
  return { type, partyId }

instance : Value MessageActivity where
  write := MessageActivity.toJson
  get := MessageActivity.fromJson
  init := {}

def MessageInteraction.toJson (i : MessageInteraction) : Option Json :=
  writeAll .null
    [("id", serialize i.id), ("type", serialize i.type), ("name", serialize i.name),
     ("user", serialize i.user), ("member", serialize i.member)]

def MessageInteraction.fromJson (j : Json) : Option MessageInteraction := do
  let id ← deserialize j "id"
  let type ← deserialize j "type"
  let name ← deserialize j "name"
  let user ← deserialize j "user"
  let member ← deserialize j "member"
  return { id, type, name, user, member }

instance : Value MessageInteraction where
  write := MessageInteraction.toJson
  get := MessageInteraction.fromJson
  init := {}

/-- The components are written as a list of what each of them is written as. -/
instance : Value (List MessageComponent) where
  write := writeList MessageComponent.toJson
  get
    | .array elements => elements.mapM MessageComponent.fromJson
    | _ => none
  init := []

def Message.toJson (m : Message) : Option Json :=
  writeAll .null
    [("id", serialize m.id), ("channel_id", serialize m.channelId),
     ("guild_id", serialize m.guildId), ("author", serialize m.author),
     ("content", serialize m.content), ("timestamp", serialize m.timestamp),
     ("edited_timestamp", serialize m.editedTimestamp), ("tts", serialize m.tts),
     ("mention_everyone", serialize m.mentionEveryone), ("mentions", serialize m.mentions),
     ("mention_roles", serialize m.mentionRoles),
     ("mention_channels", serialize m.mentionChannels),
     ("attachments", serialize m.attachments), ("embeds", serialize m.embeds),
     ("nonce", serialize m.nonce), ("pinned", serialize m.pinned),
     ("webhook_id", serialize m.webhookId), ("type", serialize m.type),
     ("activity", serialize m.activity), ("application", serialize m.application),
     ("application_id", serialize m.applicationId),
     ("message_reference", serialize m.messageReference), ("flags", serialize m.flags),
     ("referenced_message", serialize m.referencedMessage),
     ("interaction", serialize m.interaction), ("components", serialize m.components)]

def Message.fromJson (j : Json) : Option Message := do
  let id ← deserialize j "id"
  let channelId ← deserialize j "channel_id"
  let guildId ← deserialize j "guild_id"
  let author ← deserialize j "author"
  let content ← deserialize j "content"
  let timestamp ← deserialize j "timestamp"
  let editedTimestamp ← deserialize j "edited_timestamp"
  let tts ← deserialize j "tts"
  let mentionEveryone ← deserialize j "mention_everyone"
  let mentions ← deserialize j "mentions"
  let mentionRoles ← deserialize j "mention_roles"
  let mentionChannels ← deserialize j "mention_channels"
  let attachments ← deserialize j "attachments"
  let embeds ← deserialize j "embeds"
  let nonce ← deserialize j "nonce"
  let pinned ← deserialize j "pinned"
  let webhookId ← deserialize j "webhook_id"
  let type ← deserialize j "type"
  let activity ← deserialize j "activity"
  let application ← deserialize j "application"
  let applicationId ← deserialize j "application_id"
  let messageReference ← deserialize j "message_reference"
  let flags ← deserialize j "flags"
  let referencedMessage ← deserialize j "referenced_message"
  let interaction ← deserialize j "interaction"
  let components ← deserialize j "components"
  return { id, channelId, guildId, author, content, timestamp, editedTimestamp, tts,
           mentionEveryone, mentions, mentionRoles, mentionChannels, attachments, embeds, nonce,
           pinned, webhookId, type, activity, application, applicationId, messageReference, flags,
           referencedMessage, interaction, components }

end

/-! ## The parts of a message -/

instance : NormalForm MessageApplication :=
  (Fields.cons (A := Snowflake) "id" <| .cons (A := String) "name" <|
    .cons (A := Option String) "icon" <| .cons (A := String) "description" <|
    .cons (A := Option String) "cover_image" .nil).solid
    (fun a => (a.id, a.name, a.icon, a.description, a.coverImage, ()))
    (fun (id, name, icon, description, coverImage, _) =>
      { id, name, icon, description, coverImage })
    (fun _ => rfl) (fun _ => rfl) rfl fun _ => rfl

instance : Whole MessageApplication where
  norm_eq a := by
    show MessageApplication.mk (MemberForm.norm a.id) (MemberForm.norm a.name)
      (MemberForm.norm a.icon) (MemberForm.norm a.description) (MemberForm.norm a.coverImage) = a
    simp only [norm_whole, norm_optional_whole]
  not_blank _ := rfl

instance : NormalForm MessageReference :=
  (Fields.cons (A := Option Snowflake) "message_id" <|
    .cons (A := Option Snowflake) "channel_id" <| .cons (A := Option Snowflake) "guild_id" <|
    .cons (A := Option Bool) "fail_if_not_exists" .nil).normalForm
    (fun r => (r.messageId, r.channelId, r.guildId, r.failIfNotExists, ()))
    (fun (messageId, channelId, guildId, failIfNotExists, _) =>
      { messageId, channelId, guildId, failIfNotExists })
    (fun _ => rfl) (fun _ => rfl) rfl fun r hblank => by
      obtain ⟨messageId, channelId, guildId, failIfNotExists⟩ := r
      have hnone : (messageId.isNone && (channelId.isNone && (guildId.isNone &&
        (failIfNotExists.isNone && true)))) = true := hblank
      simp only [Bool.and_eq_true, Option.isNone_iff_eq_none] at hnone
      obtain ⟨rfl, rfl, rfl, rfl, -⟩ := hnone
      rfl

/-- A reference comes back as it was, also one of which nothing is set. -/
theorem MessageReference.norm_eq (r : MessageReference) : NormalForm.norm r = r := by
  show MessageReference.mk (MemberForm.norm r.messageId) (MemberForm.norm r.channelId)
    (MemberForm.norm r.guildId) (MemberForm.norm r.failIfNotExists) = r
  simp only [norm_optional_whole]

section

variable [FloatCast]

instance : NormalForm Attachment :=
  (Fields.cons (A := Snowflake) "id" <| .cons (A := String) "filename" <|
    .cons (A := String) "description" <| .cons (A := String) "content_type" <|
    .cons (A := UInt64) "size" <| .cons (A := String) "url" <|
    .cons (A := String) "proxy_url" <| .cons (A := UInt16) "height" <|
    .cons (A := UInt16) "width" <| .cons (A := Bool) "ephemeral" .nil).solid
    (fun a => (a.id, a.filename, a.description, a.contentType, a.size, a.url, a.proxyUrl,
      a.height, a.width, a.ephemeral, ()))
    (fun (id, filename, description, contentType, size, url, proxyUrl, height, width, ephemeral,
        _) =>
      { id, filename, description, contentType, size, url, proxyUrl, height, width, ephemeral })
    (fun _ => rfl) (fun _ => rfl) rfl fun _ => rfl

instance : Whole Attachment where
  norm_eq a := by
    show Attachment.mk (MemberForm.norm a.id) (MemberForm.norm a.filename)
      (MemberForm.norm a.description) (MemberForm.norm a.contentType) (MemberForm.norm a.size)
      (MemberForm.norm a.url) (MemberForm.norm a.proxyUrl) (MemberForm.norm a.height)
      (MemberForm.norm a.width) (MemberForm.norm a.ephemeral) = a
    simp only [norm_whole]
  not_blank _ := rfl

instance : NormalForm ChannelMention :=
  (Fields.cons (A := Snowflake) "id" <| .cons (A := Snowflake) "guild_id" <|
    .cons (A := ChannelType) "type" <| .cons (A := String) "name" .nil).solid
    (fun m => (m.id, m.guildId, m.type, m.name, ()))
    (fun (id, guildId, type, name, _) => { id, guildId, type, name })
    (fun _ => rfl) (fun _ => rfl) rfl fun _ => rfl

instance : Whole ChannelMention where
  norm_eq m := by
    show ChannelMention.mk (MemberForm.norm m.id) (MemberForm.norm m.guildId)
      (MemberForm.norm m.type) (MemberForm.norm m.name) = m
    simp only [norm_whole]
  not_blank _ := rfl

instance : NormalForm MessageActivity :=
  (Fields.cons (A := MessageActivityType) "type" <| .cons (A := Option String) "party_id"
    .nil).solid (fun a => (a.type, a.partyId, ())) (fun (type, partyId, _) => { type, partyId })
    (fun _ => rfl) (fun _ => rfl) rfl fun _ => rfl

instance : Whole MessageActivity where
  norm_eq a := by
    show MessageActivity.mk (MemberForm.norm a.type) (MemberForm.norm a.partyId) = a
    simp only [norm_whole, norm_optional_whole]
  not_blank _ := rfl

instance : NormalForm MessageInteraction :=
  (Fields.cons (A := Snowflake) "id" <| .cons (A := InteractionType) "type" <|
    .cons (A := String) "name" <| .cons (A := User) "user" <|
    .cons (A := Option PartialMember) "member" .nil).solid
    (fun i => (i.id, i.type, i.name, i.user, i.member, ()))
    (fun (id, type, name, user, member, _) => { id, type, name, user, member })
    (fun _ => rfl) (fun _ => rfl) rfl fun _ => rfl

/-- A user without its global name. -/
def User.unnamed (u : User) : User := { u with globalName := none }

def PartialMember.unnamed (m : PartialMember) : PartialMember :=
  { m with user := m.user.map User.unnamed }

def MessageInteraction.unnamed (i : MessageInteraction) : MessageInteraction :=
  { i with user := i.user.unnamed, member := i.member.map PartialMember.unnamed }

theorem User.norm_unnamed : (NormalForm.norm : User → User) = User.unnamed :=
  funext User.norm_eq

theorem PartialMember.norm_unnamed :
    (NormalForm.norm : PartialMember → PartialMember) = PartialMember.unnamed := by
  funext m
  rw [PartialMember.norm_eq, User.norm_unnamed]
  rfl

/-- **An interaction** comes back with what is left of its users. -/
theorem MessageInteraction.norm_eq (i : MessageInteraction) : NormalForm.norm i = i.unnamed := by
  show MessageInteraction.mk (MemberForm.norm i.id) (MemberForm.norm i.type)
    (MemberForm.norm i.name) (NormalForm.norm i.user) (MemberForm.norm i.member) = _
  rw [User.norm_unnamed]
  simp only [norm_whole, norm_optional (A := PartialMember) fun _ => rfl,
    PartialMember.norm_unnamed]
  rfl

/-! ## Messages -/

def Message.members :=
  Fields.cons (A := Snowflake) "id" <| .cons (A := Snowflake) "channel_id" <|
  .cons (A := Option Snowflake) "guild_id" <| .cons (A := User) "author" <|
  .cons (A := String) "content" <| .cons (A := String) "timestamp" <|
  .cons (A := Option String) "edited_timestamp" <| .cons (A := Bool) "tts" <|
  .cons (A := Bool) "mention_everyone" <| .cons (A := List User) "mentions" <|
  .cons (A := List Snowflake) "mention_roles" <|
  .cons (A := List ChannelMention) "mention_channels" <|
  .cons (A := List Attachment) "attachments" <| .cons (A := List Embed) "embeds" <|
  .cons (A := String) "nonce" <| .cons (A := Bool) "pinned" <|
  .cons (A := Snowflake) "webhook_id" <| .cons (A := MessageType) "type" <|
  .cons (A := Option MessageActivity) "activity" <|
  .cons (A := Option MessageApplication) "application" <|
  .cons (A := Option Snowflake) "application_id" <|
  .cons (A := MessageReference) "message_reference" <| .cons (A := MessageFlags) "flags" <|
  .cons (A := Snowflake) "referenced_message" <|
  .cons (A := Option MessageInteraction) "interaction" .nil

/-- The members before the components. -/
def Message.fields (m : Message) :=
  (m.id, m.channelId, m.guildId, m.author, m.content, m.timestamp, m.editedTimestamp, m.tts,
    m.mentionEveryone, m.mentions, m.mentionRoles, m.mentionChannels, m.attachments, m.embeds,
    m.nonce, m.pinned, m.webhookId, m.type, m.activity, m.application, m.applicationId,
    m.messageReference, m.flags, m.referencedMessage, m.interaction, ())

/-- What is left of a message, its components apart. -/
def Message.norm (m : Message) : Message :=
  { m with
    author := m.author.unnamed
    mentions := m.mentions.map User.unnamed
    embeds := m.embeds.map Embed.norm
    interaction := m.interaction.map MessageInteraction.unnamed
    crossposted := false
    deleted := false }

theorem Message.nodup_keys : (Message.members.keys ++ ["components"]).Nodup := by
  simp [Message.members]

theorem Message.toJson_eq (m : Message) :
    m.toJson = writeAll .null
      (Message.members.puts m.fields ++ [("components", serialize m.components)]) :=
  rfl

theorem Message.fromJson_eq (j : Json) :
    Message.fromJson j = Message.members.read j
      fun (id, channelId, guildId, author, content, timestamp, editedTimestamp, tts,
          mentionEveryone, mentions, mentionRoles, mentionChannels, attachments, embeds, nonce,
          pinned, webhookId, type, activity, application, applicationId, messageReference, flags,
          referencedMessage, interaction, _) =>
        (deserialize j "components").bind fun components =>
          some { id, channelId, guildId, author, content, timestamp, editedTimestamp, tts,
                 mentionEveryone, mentions, mentionRoles, mentionChannels, attachments, embeds,
                 nonce, pinned, webhookId, type, activity, application, applicationId,
                 messageReference, flags, referencedMessage, interaction, components } :=
  rfl

theorem Message.norm_fields (m : Message) :
    Message.members.norm m.fields = m.norm.fields := by
  show (MemberForm.norm m.id, MemberForm.norm m.channelId, MemberForm.norm m.guildId,
    NormalForm.norm m.author, MemberForm.norm m.content, MemberForm.norm m.timestamp,
    MemberForm.norm m.editedTimestamp, MemberForm.norm m.tts, MemberForm.norm m.mentionEveryone,
    m.mentions.map NormalForm.norm, MemberForm.norm m.mentionRoles,
    MemberForm.norm m.mentionChannels, MemberForm.norm m.attachments,
    m.embeds.map NormalForm.norm, MemberForm.norm m.nonce, MemberForm.norm m.pinned,
    MemberForm.norm m.webhookId, MemberForm.norm m.type, MemberForm.norm m.activity,
    MemberForm.norm m.application, MemberForm.norm m.applicationId,
    NormalForm.norm m.messageReference, MemberForm.norm m.flags,
    MemberForm.norm m.referencedMessage, MemberForm.norm m.interaction, ()) = _
  rw [User.norm_unnamed, show (NormalForm.norm : Embed → Embed) = Embed.norm from
    funext Embed.norm_eq, MessageReference.norm_eq]
  simp only [norm_whole, norm_optional_whole,
    norm_optional (A := MessageInteraction) fun _ => rfl,
    show (NormalForm.norm : MessageInteraction → MessageInteraction) =
      MessageInteraction.unnamed from funext MessageInteraction.norm_eq]
  rfl

/-- A message that is read from members that were written. -/
theorem Message.fromJson_written {m : Message} {out : Json}
    (h : ∀ p ∈ members.puts m.fields, ∃ w, p.2 .null = some w ∧ out.get p.1 = w.getD .null) :
    Message.fromJson out =
      (deserialize out "components").map fun components => { m.norm with components } := by
  rw [fromJson_eq, members.read_written h, norm_fields]
  cases deserialize (A := List MessageComponent) out "components" with
  | none => rfl
  | some components => rfl

/-- The components, once they are written. -/
theorem Message.read_components {out : Json} {outs : List Json}
    (h : out.get "components" = .array outs) :
    deserialize out "components" = outs.mapM MessageComponent.fromJson := by
  rw [deserialize, h]
  show (outs.mapM MessageComponent.fromJson).map (fun components => components) = _
  exact Option.map_id'

/-- **What comes back of a message** that is written and read: its normal form, with what
comes back of each of its components.  Where one of them does not come back, neither does the
message. -/
theorem Message.recode (m : Message) :
    m.toJson.bind Message.fromJson =
      (m.components.mapM fun c : MessageComponent => c.toJson.bind MessageComponent.fromJson).map
        fun components => { m.norm with components } := by
  rw [mapM_recode MessageComponent.toJson MessageComponent.fromJson, toJson_eq]
  have hput : ∀ j, serialize m.components j =
      ((m.components.mapM MessageComponent.toJson).map Json.array).map some := fun _ => rfl
  cases hcomponents : m.components.mapM MessageComponent.toJson with
  | none =>
      rw [hcomponents] at hput
      rw [writeAll_append]
      cases writeAll .null (members.puts m.fields) with
      | none => rfl
      | some out => simp [writeAll, hput]
  | some outs =>
      rw [hcomponents] at hput
      have hkeys : ((members.puts m.fields ++ [("components", serialize m.components)]).map
          Prod.fst).Nodup := by
        rw [List.map_append, members.puts_keys]
        exact nodup_keys
      have hwrites : ∀ p ∈ members.puts m.fields ++ [("components", serialize m.components)],
          ∃ w, p.2 .null = some w := by
        intro p hp
        cases List.mem_append.mp hp with
        | inl hp => exact members.writes _ p hp
        | inr hp =>
            obtain rfl := List.mem_singleton.mp hp
            exact ⟨_, hput _⟩
      obtain ⟨out, hwrite, -, -⟩ := writeAll_null hkeys hwrites
      obtain ⟨w, hw, hget⟩ :=
        get_written hwrite hkeys (List.mem_append_right _ List.mem_cons_self)
      obtain rfl := Option.some.inj ((hput _).symm.trans hw)
      rw [hwrite, Option.bind_some, Option.bind_some, fromJson_written fun p hp =>
        get_written hwrite hkeys (List.mem_append_left _ hp), read_components hget]

/-- A message comes back as it was exactly if it is its own normal form and its components
come back as they were. -/
theorem Message.recode_eq_iff (m : Message) :
    m.toJson.bind Message.fromJson = some m ↔
      m.norm = m ∧ (m.components.mapM fun c : MessageComponent =>
        c.toJson.bind MessageComponent.fromJson) = some m.components := by
  rw [recode, Option.map_eq_some_iff]
  constructor
  · intro h
    obtain ⟨components, hcomponents, hm⟩ := h
    obtain rfl : components = m.components := congrArg Message.components hm
    exact ⟨hm, hcomponents⟩
  · intro h
    obtain ⟨hm, hcomponents⟩ := h
    exact ⟨m.components, hcomponents, hm⟩

end

end Ekizu.Messages

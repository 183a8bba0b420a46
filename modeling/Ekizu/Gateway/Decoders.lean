import Ekizu.Gateway.JsonUtil

/-!
# Event decoders

The `from_json` of every type that a gateway event is made of: the members each
reads, with the shape of the field.  A struct that an event only wraps stands for
the event.
-/

namespace Ekizu.Gateway.Decoder

/-! ## Users, channels and guilds -/

def permissionOverwrite : Fields :=
  [("id", .snowflake), ("type", .number), ("allow", .permissions), ("deny", .permissions)]

def user : Fields :=
  [("id", .snowflake), ("username", .string), ("discriminator", .string), ("avatar", .string),
   ("bot", .boolean), ("system", .boolean), ("mfa_enabled", .boolean), ("banner", .string),
   ("accent_color", .narrow), ("locale", .string), ("verified", .boolean), ("email", .string),
   ("flags", .number), ("premium_type", .number), ("public_flags", .number),
   ("avatar_decoration", .string)]

def threadMetadata : Fields :=
  [("archived", .boolean), ("auto_archive_duration", .narrow), ("archive_timestamp", .string),
   ("locked", .boolean), ("invitable", .boolean), ("create_timestamp", .string)]

def guildMember : Fields :=
  [("user", .record user), ("nick", .string), ("avatar", .string), ("roles", .array .snowflake),
   ("joined_at", .string), ("premium_since", .string), ("communication_disabled_until", .string),
   ("deaf", .boolean), ("mute", .boolean), ("pending", .boolean), ("permissions", .string),
   ("communication_disabled_until", .string)]

def activityTimestamps : Fields := [("start", .wide), ("end", .wide)]

def activityEmoji : Fields := [("name", .string), ("id", .snowflake), ("animated", .boolean)]

def activityParty : Fields := [("id", .string), ("size", .pair .wide)]

def activityAssets : Fields :=
  [("large_image", .string), ("large_text", .string), ("small_image", .string),
   ("small_text", .string)]

def activitySecrets : Fields := [("join", .string), ("spectate", .string), ("match", .string)]

def activityButton : Fields := [("label", .string), ("url", .string)]

def activity : Fields :=
  [("name", .string), ("type", .number), ("url", .string), ("created_at", .wide),
   ("timestamps", .record activityTimestamps), ("application_id", .snowflake), ("details", .string),
   ("state", .string), ("emoji", .record activityEmoji), ("party", .record activityParty),
   ("assets", .record activityAssets), ("secrets", .record activitySecrets), ("instance", .boolean),
   ("flags", .number), ("buttons", .array (.record activityButton))]

def clientStatus : Fields := [("desktop", .status), ("mobile", .status), ("web", .status)]

def presence : Fields :=
  [("activities", .array (.record activity)), ("client_status", .record clientStatus),
   ("guild_id", .snowflake), ("status", .status)]

def threadMember : Fields :=
  [("id", .snowflake), ("user_id", .snowflake), ("join_timestamp", .string), ("flags", .wide),
   ("member", .record guildMember), ("presence", .record presence)]

def forumTag : Fields :=
  [("id", .snowflake), ("name", .string), ("moderated", .boolean), ("emoji_id", .snowflake),
   ("emoji_name", .string)]

def defaultReaction : Fields := [("emoji_id", .snowflake), ("emoji_name", .string)]

def channel : Fields :=
  [("id", .snowflake), ("type", .number), ("guild_id", .snowflake), ("position", .narrow),
   ("permission_overwrites", .array (.record permissionOverwrite)), ("name", .string),
   ("topic", .string), ("nsfw", .boolean), ("last_message_id", .snowflake), ("bitrate", .narrow),
   ("user_limit", .narrow), ("rate_limit_per_user", .narrow), ("recipients", .array (.record user)),
   ("icon", .string), ("owner_id", .snowflake), ("application_id", .snowflake),
   ("managed", .boolean), ("parent_id", .snowflake), ("last_pin_timestamp", .string),
   ("rtc_region", .string), ("video_quality_mode", .narrow), ("message_count", .narrow),
   ("member_count", .narrow), ("thread_metadata", .record threadMetadata),
   ("member", .record threadMember), ("default_auto_archive_duration", .narrow),
   ("permissions", .string), ("flags", .narrow), ("total_messages_sent", .narrow),
   ("available_tags", .array (.record forumTag)), ("applied_tags", .array .snowflake),
   ("default_reaction_emoji", .record defaultReaction),
   ("default_thread_rate_limit_per_user", .narrow), ("default_sort_order", .narrow),
   ("default_forum_layout", .narrow)]

def channelPinsUpdate : Fields :=
  [("guild_id", .snowflake), ("channel_id", .snowflake), ("last_pin_timestamp", .string)]

def guildBanAdd : Fields := [("guild_id", .snowflake), ("user", .record user)]

def guildBanRemove : Fields := [("guild_id", .snowflake), ("user", .record user)]

def roleTags : Fields :=
  [("bot_id", .snowflake), ("integration_id", .snowflake), ("premium_subscriber", .boolean),
   ("subscription_listing_id", .snowflake), ("available_for_purchase", .boolean),
   ("guild_connections", .boolean)]

def role : Fields :=
  [("id", .snowflake), ("name", .string), ("color", .narrow), ("hoist", .boolean),
   ("icon", .string), ("unicode_emoji", .string), ("position", .narrow), ("permissions", .wide),
   ("managed", .boolean), ("mentionable", .boolean), ("tags", .record roleTags), ("flags", .wide)]

def emoji : Fields :=
  [("id", .snowflake), ("name", .string), ("roles", .array .snowflake), ("user_id", .snowflake),
   ("require_colons", .boolean), ("managed", .boolean), ("animated", .boolean),
   ("available", .boolean), ("user", .record user)]

def sticker : Fields :=
  [("id", .snowflake), ("pack_id", .snowflake), ("name", .string), ("description", .string),
   ("tags", .string), ("type", .number), ("format_type", .number), ("available", .boolean),
   ("guild_id", .snowflake), ("sort_value", .narrow), ("user", .record user)]

def voiceState : Fields :=
  [("guild_id", .snowflake), ("channel_id", .snowflake), ("user_id", .snowflake),
   ("member", .record guildMember), ("session_id", .string), ("deaf", .boolean), ("mute", .boolean),
   ("self_deaf", .boolean), ("self_mute", .boolean), ("self_stream", .boolean),
   ("self_video", .boolean), ("suppress", .boolean), ("request_to_speak_timestamp", .string)]

def guild : Fields :=
  [("id", .snowflake), ("name", .string), ("icon", .string), ("icon_hash", .string),
   ("splash", .string), ("discovery_splash", .string), ("owner", .boolean),
   ("owner_id", .snowflake), ("permissions", .string), ("region", .string),
   ("afk_channel_id", .snowflake), ("afk_timeout", .narrow), ("widget_enabled", .boolean),
   ("widget_channel_id", .snowflake), ("verification_level", .number),
   ("default_message_notifications", .number), ("explicit_content_filter", .number),
   ("roles", .array (.record role)), ("emojis", .array (.record emoji)),
   ("features", .array .anything), ("mfa_level", .number), ("application_id", .snowflake),
   ("system_channel_id", .snowflake), ("system_channel_flags", .number),
   ("rules_channel_id", .snowflake), ("max_presences", .wide), ("vanity_url_code", .string),
   ("description", .string), ("banner", .string), ("premium_tier", .number),
   ("premium_subscription_count", .wide), ("preferred_locale", .string),
   ("public_updates_channel_id", .snowflake), ("max_video_channel_users", .narrow),
   ("approximate_member_count", .narrow), ("approximate_presence_count", .narrow),
   ("nsfw_level", .number), ("stickers", .array (.record sticker)),
   ("premium_progress_bar_enabled", .boolean), ("safety_alerts_channel_id", .snowflake),
   ("members", .array (.record guildMember)), ("voice_states", .array (.record voiceState))]

def guildDelete : Fields := [("guild_id", .snowflake), ("unavailable", .boolean)]

def guildEmojisUpdate : Fields := [("guild_id", .snowflake), ("emojis", .array (.record emoji))]

def guildIntegrationsUpdate : Fields := [("guild_id", .snowflake)]

def guildMemberAdd : Fields := [("guild_id", .snowflake), ("member", .record guildMember)]

def guildMemberRemove : Fields := [("guild_id", .snowflake), ("member", .record guildMember)]

def guildMemberUpdate : Fields :=
  [("guild_id", .snowflake), ("roles", .array .snowflake), ("user", .record user),
   ("nick", .string), ("avatar", .string), ("joined_at", .string), ("premium_since", .string),
   ("deaf", .boolean), ("mute", .boolean), ("pending", .boolean),
   ("communication_disabled_until", .string)]

def guildMembersChunk : Fields :=
  [("guild_id", .snowflake), ("members", .array (.record guildMember)), ("chunk_index", .narrow),
   ("chunk_count", .narrow), ("not_found", .array .snowflake),
   ("presences", .array (.record presence)), ("nonce", .string)]

def guildRoleCreate : Fields := [("guild_id", .snowflake), ("role", .record role)]

def guildRoleDelete : Fields := [("guild_id", .snowflake), ("role_id", .snowflake)]

def guildRoleUpdate : Fields := [("guild_id", .snowflake), ("role", .record role)]

def entityMetadata : Fields := [("location", .string)]

def guildScheduledEvent : Fields :=
  [("id", .snowflake), ("guild_id", .snowflake), ("channel_id", .snowflake),
   ("creator_id", .snowflake), ("name", .string), ("description", .string),
   ("scheduled_start_time", .string), ("scheduled_end_time", .string), ("privacy_level", .number),
   ("status", .number), ("entity_type", .number), ("entity_id", .snowflake),
   ("entity_metadata", .record entityMetadata), ("creator", .record user), ("user_count", .narrow),
   ("image", .string)]

def guildScheduledEventUserAdd : Fields :=
  [("guild_id", .snowflake), ("guild_scheduled_event_id", .snowflake), ("user_id", .snowflake)]

def guildScheduledEventUserRemove : Fields :=
  [("guild_id", .snowflake), ("guild_scheduled_event_id", .snowflake), ("user_id", .snowflake)]

def guildStickersUpdate : Fields :=
  [("guild_id", .snowflake), ("stickers", .array (.record sticker))]

def partialGuild : Fields :=
  [("id", .snowflake), ("name", .string), ("icon", .string), ("icon_hash", .string),
   ("splash", .string), ("discovery_splash", .string), ("owner", .boolean),
   ("owner_id", .snowflake), ("permissions", .permissions), ("region", .string),
   ("afk_channel_id", .snowflake), ("afk_timeout", .narrow), ("widget_enabled", .boolean),
   ("widget_channel_id", .snowflake), ("verification_level", .number),
   ("default_message_notifications", .number), ("explicit_content_filter", .number),
   ("roles", .array (.record role)), ("emojis", .array (.record emoji)),
   ("features", .array .anything), ("mfa_level", .number), ("application_id", .snowflake),
   ("system_channel_id", .snowflake), ("system_channel_flags", .number),
   ("rules_channel_id", .snowflake), ("max_presences", .wide), ("max_members", .wide),
   ("vanity_url_code", .string), ("description", .string), ("banner", .string),
   ("premium_tier", .number), ("premium_subscription_count", .wide), ("preferred_locale", .string),
   ("public_updates_channel_id", .snowflake), ("nsfw_level", .number),
   ("stickers", .array (.record sticker)), ("premium_progress_bar_enabled", .boolean),
   ("max_video_channel_users", .wide), ("max_stage_video_channel_users", .wide),
   ("approximate_member_count", .wide), ("approximate_presence_count", .wide)]

def integrationAccount : Fields := [("id", .snowflake), ("name", .string)]

def integrationApplication : Fields :=
  [("id", .snowflake), ("name", .string), ("icon", .string), ("description", .string),
   ("bot", .record user)]

def guildIntegration : Fields :=
  [("id", .snowflake), ("name", .string), ("type", .anything), ("enabled", .boolean),
   ("syncing", .boolean), ("role_id", .snowflake), ("enable_emoticons", .boolean),
   ("expire_behavior", .number), ("expire_grace_period", .wide), ("user", .record user),
   ("account", .record integrationAccount), ("synced_at", .string), ("subscriber_count", .wide),
   ("revoked", .boolean), ("application", .record integrationApplication),
   ("scopes", .array .string)]

def partialInteractionGuild : Fields :=
  [("id", .snowflake), ("locale", .string), ("features", .array .anything)]

def partialInteractionChannel : Fields :=
  [("id", .snowflake), ("type", .number), ("name", .string), ("parent_id", .snowflake),
   ("permissions", .permissions), ("thread_metadata", .record threadMetadata)]

def channelMention : Fields :=
  [("id", .snowflake), ("guild_id", .snowflake), ("type", .number), ("name", .string)]

/-! ## Messages and their components -/

def attachment : Fields :=
  [("id", .snowflake), ("filename", .string), ("description", .string), ("content_type", .string),
   ("size", .wide), ("url", .string), ("proxy_url", .string), ("height", .narrow),
   ("width", .narrow), ("ephemeral", .boolean)]

def embedAuthor : Fields :=
  [("name", .string), ("url", .string), ("icon_url", .string), ("proxy_icon_url", .string)]

def embedFooter : Fields := [("text", .string), ("icon_url", .string), ("proxy_icon_url", .string)]

def embedImage : Fields :=
  [("url", .string), ("proxy_url", .string), ("height", .narrow), ("width", .narrow)]

def embedProvider : Fields := [("name", .string), ("url", .string)]

def embedField : Fields := [("name", .string), ("value", .string), ("inline", .boolean)]

def embed : Fields :=
  [("title", .string), ("description", .string), ("url", .string), ("timestamp", .string),
   ("color", .narrow), ("author", .record embedAuthor), ("footer", .record embedFooter),
   ("thumbnail", .record embedImage), ("image", .record embedImage),
   ("provider", .record embedProvider), ("video", .record embedImage),
   ("fields", .array (.record embedField))]

def messageActivity : Fields := [("type", .number), ("party_id", .string)]

def messageApplication : Fields :=
  [("id", .snowflake), ("name", .string), ("icon", .string), ("description", .string),
   ("cover_image", .string)]

def messageReference : Fields :=
  [("message_id", .snowflake), ("channel_id", .snowflake), ("guild_id", .snowflake),
   ("fail_if_not_exists", .boolean)]

def partialMember : Fields :=
  [("user", .record user), ("nick", .string), ("avatar", .string), ("roles", .array .snowflake),
   ("joined_at", .string), ("premium_since", .string), ("communication_disabled_until", .string),
   ("deaf", .boolean), ("mute", .boolean), ("pending", .boolean), ("permissions", .string),
   ("communication_disabled_until", .string)]

def messageInteraction : Fields :=
  [("id", .snowflake), ("type", .number), ("name", .string), ("user", .record user),
   ("member", .record partialMember)]

def partialEmoji : Fields := [("id", .snowflake), ("name", .string), ("animated", .boolean)]

def button : Fields :=
  [("id", .narrow), ("style", .number), ("label", .string), ("emoji", .record partialEmoji),
   ("custom_id", .string), ("url", .string), ("sku_id", .wide), ("disabled", .boolean)]

def selectOptions : Fields :=
  [("label", .string), ("value", .string), ("description", .string),
   ("emoji", .record partialEmoji), ("default", .boolean)]

def selectMenuDefaultValue : Fields := [("id", .wide), ("type", .string)]

/-- `deserialize_select_common`. -/
def selectCommon : Fields :=
  [("id", .narrow), ("custom_id", .string), ("placeholder", .string), ("min_values", .narrow),
   ("max_values", .narrow), ("disabled", .boolean)]

def defaultValues : Fields := [("default_values", .array (.record selectMenuDefaultValue))]

def selectMenu : Fields := selectCommon ++ [("options", .array (.record selectOptions))]

def textInput : Fields :=
  [("id", .narrow), ("custom_id", .string), ("style", .number), ("label", .string),
   ("min_length", .narrow), ("max_length", .narrow), ("required", .boolean), ("value", .string),
   ("placeholder", .string)]

def userSelectMenu : Fields := selectCommon ++ defaultValues

def roleSelectMenu : Fields := selectCommon ++ defaultValues

def mentionableSelectMenu : Fields := selectCommon ++ defaultValues

def channelSelectMenu : Fields :=
  selectCommon ++ defaultValues ++ [("channel_types", .array .narrow)]

def fileUpload : Fields :=
  [("id", .narrow), ("custom_id", .string), ("min_values", .narrow), ("max_values", .narrow),
   ("required", .boolean)]

/-- `ActionRowComponent`. -/
def actionRowComponent : Shape :=
  .union [(2, button), (3, selectMenu), (4, textInput), (5, userSelectMenu), (6, roleSelectMenu),
    (7, mentionableSelectMenu), (8, channelSelectMenu), (19, fileUpload)]

def actionRow : Fields := [("id", .narrow), ("components", .array actionRowComponent)]

def textDisplay : Fields := [("id", .narrow), ("content", .string)]

def unfurledMediaItem : Fields := [("url", .string)]

def thumbnail : Fields :=
  [("id", .narrow), ("media", .record unfurledMediaItem), ("description", .string),
   ("spoiler", .boolean)]

/-- `SectionAccessory`. -/
def sectionAccessory : Shape := .union [(2, button), (11, thumbnail)]

def sectionLayout : Fields :=
  [("id", .narrow), ("components", .array (.record textDisplay)), ("accessory", sectionAccessory)]

def mediaGalleryItem : Fields :=
  [("media", .record unfurledMediaItem), ("description", .string), ("spoiler", .boolean)]

def mediaGallery : Fields := [("id", .narrow), ("items", .array (.record mediaGalleryItem))]

def file : Fields := [("id", .narrow), ("file", .record unfurledMediaItem), ("spoiler", .boolean)]

def separator : Fields := [("id", .narrow), ("divider", .boolean), ("spacing", .narrow)]

/-- `container_child_from_json`. -/
def containerChild : Shape :=
  .union [(1, actionRow), (2, button), (3, selectMenu), (5, userSelectMenu), (6, roleSelectMenu),
    (7, mentionableSelectMenu), (8, channelSelectMenu), (9, sectionLayout), (10, textDisplay),
    (11, thumbnail), (12, mediaGallery), (13, file), (14, separator)]

def container : Fields :=
  [("id", .narrow), ("spoiler", .boolean), ("components", .elements containerChild)]

/-- `label_component_from_json`. -/
def labelComponent : Shape :=
  .union [(3, selectMenu), (4, textInput), (5, userSelectMenu), (6, roleSelectMenu),
    (7, mentionableSelectMenu), (8, channelSelectMenu), (19, fileUpload)]

def label : Fields :=
  [("id", .narrow), ("label", .string), ("description", .string), ("component", labelComponent)]

/-- `MessageComponent`. -/
def messageComponent : Shape :=
  .union [(1, actionRow), (2, button), (3, selectMenu), (4, textInput), (5, userSelectMenu),
    (6, roleSelectMenu), (7, mentionableSelectMenu), (8, channelSelectMenu), (9, sectionLayout),
    (10, textDisplay), (11, thumbnail), (12, mediaGallery), (13, file), (14, separator),
    (17, container), (18, label), (19, fileUpload)]

def message : Fields :=
  [("id", .snowflake), ("channel_id", .snowflake), ("guild_id", .snowflake),
   ("author", .record user), ("content", .string), ("timestamp", .string),
   ("edited_timestamp", .string), ("tts", .boolean), ("mention_everyone", .boolean),
   ("mentions", .array (.record user)), ("mention_roles", .array .snowflake),
   ("mention_channels", .array (.record channelMention)),
   ("attachments", .array (.record attachment)), ("embeds", .array (.record embed)),
   ("nonce", .string), ("pinned", .boolean), ("webhook_id", .snowflake), ("type", .number),
   ("activity", .record messageActivity), ("application", .record messageApplication),
   ("application_id", .snowflake), ("message_reference", .record messageReference),
   ("flags", .number), ("referenced_message", .snowflake),
   ("interaction", .record messageInteraction), ("components", .array messageComponent)]

/-! ## Interactions -/

def entitlement : Fields :=
  [("id", .snowflake), ("sku_id", .snowflake), ("application_id", .snowflake),
   ("user_id", .snowflake), ("type", .number), ("deleted", .boolean), ("starts_at", .string),
   ("ends_at", .string), ("guild_id", .snowflake), ("consumed", .boolean),
   ("promotion_id", .snowflake), ("gift_code_flags", .wide), ("subscription_id", .snowflake)]

def authorizingIntegrationOwners : Fields := [("0", .snowflake), ("1", .snowflake)]

def interactionMember : Fields :=
  [("avatar", .string), ("communication_disabled_until", .string), ("flags", .number),
   ("joined_at", .string), ("nick", .string), ("pending", .boolean), ("permissions", .permissions),
   ("premium_since", .string), ("roles", .array .snowflake)]

def interactionChannel : Fields :=
  [("id", .snowflake), ("type", .number), ("name", .string), ("parent_id", .snowflake),
   ("permissions", .permissions), ("thread_metadata", .record threadMetadata)]

def applicationCommandInteractionDataResolved : Fields :=
  [("users", .map (.record user)), ("members", .map (.record interactionMember)),
   ("roles", .map (.record role)), ("channels", .map (.record interactionChannel)),
   ("messages", .map (.record message)), ("attachments", .map (.record attachment))]

/-- The `value` of an option, by the option's type. -/
def optionValue : List (Nat × Shape) :=
  [(6, .snowflake), (7, .snowflake), (8, .snowflake), (9, .snowflake), (10, .numericOption),
   (11, .snowflake)]

def applicationCommandInteractionDataOption : Shape :=
  .option [("name", .string), ("type", .number), ("focused", .boolean)]
    "options" "value" optionValue

def applicationCommandData : Fields :=
  [("id", .snowflake), ("name", .string), ("type", .number),
   ("resolved", .record applicationCommandInteractionDataResolved),
   ("options", .array applicationCommandInteractionDataOption), ("guild_id", .snowflake),
   ("target_id", .snowflake)]

def messageComponentData : Fields :=
  [("custom_id", .string), ("component_type", .number), ("values", .array .string),
   ("resolved", .record applicationCommandInteractionDataResolved)]

def stringSelectResponse : Fields :=
  [("id", .narrow), ("custom_id", .string), ("values", .array .string)]

def textInputResponse : Fields := [("id", .narrow), ("custom_id", .string), ("value", .string)]

def userSelectResponse : Fields :=
  [("id", .narrow), ("custom_id", .string), ("values", .array .snowflake)]

def roleSelectResponse : Fields :=
  [("id", .narrow), ("custom_id", .string), ("values", .array .snowflake)]

def mentionableSelectResponse : Fields :=
  [("id", .narrow), ("custom_id", .string), ("values", .array .snowflake)]

def channelSelectResponse : Fields :=
  [("id", .narrow), ("custom_id", .string), ("values", .array .snowflake)]

def fileUploadResponse : Fields :=
  [("id", .narrow), ("custom_id", .string), ("values", .array .snowflake)]

/-- `InteractiveComponentResponse`. -/
def interactiveComponentResponse : Shape :=
  .union [(3, stringSelectResponse), (4, textInputResponse), (5, userSelectResponse),
    (6, roleSelectResponse), (7, mentionableSelectResponse), (8, channelSelectResponse),
    (19, fileUploadResponse)]

def actionRowResponse : Fields :=
  [("id", .narrow), ("components", .array interactiveComponentResponse)]

def textDisplayResponse : Fields := [("id", .narrow)]

def labelResponse : Fields := [("id", .narrow), ("component", interactiveComponentResponse)]

/-- `ComponentInteractionResponse`. -/
def componentInteractionResponse : Shape :=
  .union [(1, actionRowResponse), (3, stringSelectResponse), (4, textInputResponse),
    (5, userSelectResponse), (6, roleSelectResponse), (7, mentionableSelectResponse),
    (8, channelSelectResponse), (10, textDisplayResponse), (18, labelResponse),
    (19, fileUploadResponse)]

def modalSubmitData : Fields :=
  [("custom_id", .string), ("components", .array componentInteractionResponse),
   ("resolved", .record applicationCommandInteractionDataResolved)]

/-- The `data` of an interaction, by the interaction's type. -/
def interactionData : List (Nat × Shape) :=
  [(2, .record applicationCommandData), (3, .record messageComponentData),
   (4, .record applicationCommandData), (5, .record modalSubmitData)]

def interactionFields : Fields :=
  [("id", .snowflake), ("application_id", .snowflake), ("type", .number), ("guild_id", .snowflake),
   ("guild", .record partialInteractionGuild), ("channel", .record partialInteractionChannel),
   ("channel_id", .snowflake), ("member", .record guildMember), ("user", .record user),
   ("token", .string), ("version", .narrow), ("message", .record message),
   ("app_permissions", .permissions), ("entitlements", .array (.record entitlement)),
   ("authorizing_integration_owners", .record authorizingIntegrationOwners), ("locale", .string),
   ("guild_locale", .string), ("context", .number), ("attachment_size_limit", .wide)]

def interaction : Shape := .tagged interactionFields "data" interactionData

/-! ## Events with fields of their own -/

def partialUser : Fields :=
  [("id", .snowflake), ("username", .string), ("discriminator", .string), ("avatar", .string)]

def inviteCreate : Fields :=
  [("channel_id", .snowflake), ("code", .string), ("created_at", .string), ("guild_id", .snowflake),
   ("inviter", .record user), ("max_age", .wide), ("max_uses", .wide),
   ("target_user_type", .number), ("target_user", .record partialUser), ("temporary", .boolean),
   ("uses", .narrow)]

def inviteDelete : Fields :=
  [("channel_id", .snowflake), ("code", .string), ("guild_id", .snowflake)]

def messageDelete : Fields :=
  [("id", .snowflake), ("channel_id", .snowflake), ("guild_id", .snowflake)]

def messageDeleteBulk : Fields :=
  [("ids", .array .snowflake), ("channel_id", .snowflake), ("guild_id", .snowflake)]

def messageReactionAdd : Fields :=
  [("user_id", .snowflake), ("channel_id", .snowflake), ("message_id", .snowflake),
   ("guild_id", .snowflake), ("member", .record guildMember), ("emoji", .record partialEmoji),
   ("message_author_id", .snowflake)]

def messageReactionRemove : Fields :=
  [("user_id", .snowflake), ("channel_id", .snowflake), ("message_id", .snowflake),
   ("guild_id", .snowflake), ("emoji", .record partialEmoji)]

def messageReactionRemoveAll : Fields :=
  [("channel_id", .snowflake), ("message_id", .snowflake), ("guild_id", .snowflake)]

def messageReactionRemoveEmoji : Fields :=
  [("channel_id", .snowflake), ("guild_id", .snowflake), ("message_id", .snowflake),
   ("emoji", .record emoji)]

def mention : Fields :=
  [("id", .snowflake), ("username", .string), ("discriminator", .string), ("global_name", .string),
   ("avatar", .string), ("bot", .boolean), ("system", .boolean), ("mfa_enabled", .boolean),
   ("banner", .string), ("accent_color", .narrow), ("locale", .string), ("verified", .boolean),
   ("email", .string), ("flags", .narrow), ("premium_type", .narrow), ("public_flags", .narrow),
   ("avatar_decoration", .string)]

def messageUpdate : Fields :=
  [("id", .snowflake), ("channel_id", .snowflake), ("author", .record user), ("content", .string),
   ("timestamp", .string), ("edited_timestamp", .string), ("tts", .boolean),
   ("mention_everyone", .boolean), ("mentions", .array (.record mention)),
   ("mention_roles", .array .snowflake), ("attachments", .array (.record attachment)),
   ("embeds", .array (.record embed)), ("pinned", .boolean), ("type", .number)]

def currentUser : Fields :=
  [("id", .snowflake), ("username", .string), ("discriminator", .string), ("avatar", .string),
   ("bot", .boolean), ("mfa_enabled", .boolean), ("banner", .string), ("accent_color", .narrow),
   ("locale", .string), ("verified", .boolean), ("flags", .number), ("premium_type", .number),
   ("public_flags", .number)]

def unavailableGuild : Fields := [("id", .snowflake), ("unavailable", .boolean)]

def partialApplication : Fields := [("id", .snowflake), ("flags", .number)]

def ready : Fields :=
  [("v", .narrow), ("user", .record currentUser), ("guilds", .array (.record unavailableGuild)),
   ("session_id", .string), ("resume_gateway_url", .string), ("shard_info", .pair .wide),
   ("application", .record partialApplication)]

def stageInstance : Fields :=
  [("id", .snowflake), ("guild_id", .snowflake), ("channel_id", .snowflake), ("topic", .string),
   ("privacy_level", .narrow), ("discoverable_disabled", .boolean),
   ("guild_scheduled_event_id", .snowflake)]

def threadDelete : Fields :=
  [("id", .snowflake), ("guild_id", .snowflake), ("parent_id", .snowflake), ("type", .number)]

def threadListSync : Fields :=
  [("guild_id", .snowflake), ("channel_ids", .array .snowflake),
   ("threads", .array (.record channel)), ("members", .array (.record threadMember))]

def threadMembersUpdate : Fields :=
  [("id", .snowflake), ("guild_id", .snowflake), ("member_count", .narrow),
   ("added_members", .array (.record threadMember)), ("removed_member_ids", .array .snowflake)]

def typingStart : Fields :=
  [("channel_id", .snowflake), ("guild_id", .snowflake), ("user_id", .snowflake),
   ("timestamp", .wide), ("member", .record guildMember)]

def voiceServerUpdate : Fields :=
  [("token", .string), ("guild_id", .snowflake), ("endpoint", .string)]

def webhooksUpdate : Fields := [("guild_id", .snowflake), ("channel_id", .snowflake)]

/-- The types of `event_from_str`. -/
def events : List (String × Shape) :=
  [("CHANNEL_CREATE", .record channel), ("CHANNEL_DELETE", .record channel),
   ("CHANNEL_PINS_UPDATE", .record channelPinsUpdate), ("CHANNEL_UPDATE", .record channel),
   ("GUILD_BAN_ADD", .record guildBanAdd), ("GUILD_BAN_REMOVE", .record guildBanRemove),
   ("GUILD_CREATE", .record guild), ("GUILD_DELETE", .record guildDelete),
   ("GUILD_EMOJIS_UPDATE", .record guildEmojisUpdate),
   ("GUILD_INTEGRATIONS_UPDATE", .record guildIntegrationsUpdate),
   ("GUILD_MEMBER_ADD", .record guildMemberAdd), ("GUILD_MEMBER_REMOVE", .record guildMemberRemove),
   ("GUILD_MEMBER_UPDATE", .record guildMemberUpdate),
   ("GUILD_MEMBERS_CHUNK", .record guildMembersChunk),
   ("GUILD_ROLE_CREATE", .record guildRoleCreate), ("GUILD_ROLE_DELETE", .record guildRoleDelete),
   ("GUILD_ROLE_UPDATE", .record guildRoleUpdate),
   ("GUILD_SCHEDULED_EVENT_CREATE", .record guildScheduledEvent),
   ("GUILD_SCHEDULED_EVENT_DELETE", .record guildScheduledEvent),
   ("GUILD_SCHEDULED_EVENT_UPDATE", .record guildScheduledEvent),
   ("GUILD_SCHEDULED_EVENT_USER_ADD", .record guildScheduledEventUserAdd),
   ("GUILD_SCHEDULED_EVENT_USER_REMOVE", .record guildScheduledEventUserRemove),
   ("GUILD_STICKERS_UPDATE", .record guildStickersUpdate), ("GUILD_UPDATE", .record partialGuild),
   ("INTEGRATION_CREATE", .record guildIntegration),
   ("INTEGRATION_DELETE", .record guildIntegration),
   ("INTEGRATION_UPDATE", .record guildIntegration), ("INTERACTION_CREATE", interaction),
   ("INVITE_CREATE", .record inviteCreate), ("INVITE_DELETE", .record inviteDelete),
   ("MESSAGE_CREATE", .record message), ("MESSAGE_DELETE", .record messageDelete),
   ("MESSAGE_DELETE_BULK", .record messageDeleteBulk),
   ("MESSAGE_REACTION_ADD", .record messageReactionAdd),
   ("MESSAGE_REACTION_REMOVE", .record messageReactionRemove),
   ("MESSAGE_REACTION_REMOVE_ALL", .record messageReactionRemoveAll),
   ("MESSAGE_REACTION_REMOVE_EMOJI", .record messageReactionRemoveEmoji),
   ("MESSAGE_UPDATE", .record messageUpdate), ("PRESENCE_UPDATE", .record presence),
   ("READY", .record ready), ("STAGE_INSTANCE_CREATE", .record stageInstance),
   ("STAGE_INSTANCE_DELETE", .record stageInstance),
   ("STAGE_INSTANCE_UPDATE", .record stageInstance), ("THREAD_CREATE", .record channel),
   ("THREAD_DELETE", .record threadDelete), ("THREAD_LIST_SYNC", .record threadListSync),
   ("THREAD_MEMBER_UPDATE", .record threadMember),
   ("THREAD_MEMBERS_UPDATE", .record threadMembersUpdate), ("THREAD_UPDATE", .record channel),
   ("TYPING_START", .record typingStart), ("USER_UPDATE", .record currentUser),
   ("VOICE_SERVER_UPDATE", .record voiceServerUpdate), ("VOICE_STATE_UPDATE", .record voiceState),
   ("WEBHOOKS_UPDATE", .record webhooksUpdate)]

end Ekizu.Gateway.Decoder

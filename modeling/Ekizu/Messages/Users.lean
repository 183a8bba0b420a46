import Ekizu.Components.NormalForm

/-!
# Users and members

`user.hpp`, `user.cpp`, `partial_member.hpp`, `partial_member.cpp`, with their encoders and
decoders.  A `global_name` is neither written nor read, and a member's
`communication_disabled_until` is both twice.

## Main results

* `User.norm_eq`, `PartialMember.norm_eq` — what is left of a user and of a member that are
  written and read.
-/

namespace Ekizu.Messages

open Components Lib Lib.Json

abbrev PremiumType := Enum8

abbrev UserFlags := Enum32

structure User where
  id : Snowflake := ⟨0⟩
  username : String := ""
  discriminator : String := ""
  globalName : Option String := none
  avatar : Option String := none
  bot : Bool := false
  system : Bool := false
  mfaEnabled : Bool := false
  banner : Option String := none
  accentColor : Option UInt16 := none
  locale : String := ""
  verified : Bool := false
  email : Option String := none
  flags : UserFlags := {}
  premiumType : PremiumType := {}
  publicFlags : UserFlags := {}
  avatarDecoration : Option String := none
  deriving DecidableEq

structure PartialMember where
  user : Option User := none
  nick : Option String := none
  avatar : Option String := none
  roles : Option (List Snowflake) := none
  joinedAt : String := ""
  premiumSince : Option String := none
  deaf : Bool := false
  mute : Bool := false
  pending : Option Bool := none
  permissions : Option String := none
  communicationDisabledUntil : Option String := none
  deriving DecidableEq

section

variable [FloatCast]

def User.toJson (u : User) : Option Json :=
  writeAll .null
    [("id", serialize u.id), ("username", serialize u.username),
     ("discriminator", serialize u.discriminator), ("avatar", serialize u.avatar),
     ("bot", serialize u.bot), ("system", serialize u.system),
     ("mfa_enabled", serialize u.mfaEnabled), ("banner", serialize u.banner),
     ("accent_color", serialize u.accentColor), ("locale", serialize u.locale),
     ("verified", serialize u.verified), ("email", serialize u.email),
     ("flags", serialize u.flags), ("premium_type", serialize u.premiumType),
     ("public_flags", serialize u.publicFlags),
     ("avatar_decoration", serialize u.avatarDecoration)]

def User.fromJson (j : Json) : Option User := do
  let id ← deserialize j "id"
  let username ← deserialize j "username"
  let discriminator ← deserialize j "discriminator"
  let avatar ← deserialize j "avatar"
  let bot ← deserialize j "bot"
  let system ← deserialize j "system"
  let mfaEnabled ← deserialize j "mfa_enabled"
  let banner ← deserialize j "banner"
  let accentColor ← deserialize j "accent_color"
  let locale ← deserialize j "locale"
  let verified ← deserialize j "verified"
  let email ← deserialize j "email"
  let flags ← deserialize j "flags"
  let premiumType ← deserialize j "premium_type"
  let publicFlags ← deserialize j "public_flags"
  let avatarDecoration ← deserialize j "avatar_decoration"
  return { id, username, discriminator, avatar, bot, system, mfaEnabled, banner, accentColor,
           locale, verified, email, flags, premiumType, publicFlags, avatarDecoration }

instance : Value User where
  write := User.toJson
  get := User.fromJson
  init := {}

def PartialMember.toJson (m : PartialMember) : Option Json :=
  writeAll .null
    [("user", serialize m.user), ("nick", serialize m.nick), ("avatar", serialize m.avatar),
     ("roles", serialize m.roles), ("joined_at", serialize m.joinedAt),
     ("premium_since", serialize m.premiumSince),
     ("communication_disabled_until", serialize m.communicationDisabledUntil),
     ("deaf", serialize m.deaf), ("mute", serialize m.mute), ("pending", serialize m.pending),
     ("permissions", serialize m.permissions),
     ("communication_disabled_until", serialize m.communicationDisabledUntil)]

def PartialMember.fromJson (j : Json) : Option PartialMember := do
  let user ← deserialize j "user"
  let nick ← deserialize j "nick"
  let avatar ← deserialize j "avatar"
  let roles ← deserialize j "roles"
  let joinedAt ← deserialize j "joined_at"
  let premiumSince ← deserialize j "premium_since"
  let _ : Option String ← deserialize j "communication_disabled_until"
  let deaf ← deserialize j "deaf"
  let mute ← deserialize j "mute"
  let pending ← deserialize j "pending"
  let permissions ← deserialize j "permissions"
  let communicationDisabledUntil ← deserialize j "communication_disabled_until"
  return { user, nick, avatar, roles, joinedAt, premiumSince, deaf, mute, pending, permissions,
           communicationDisabledUntil }

instance : Value PartialMember where
  write := PartialMember.toJson
  get := PartialMember.fromJson
  init := {}

/-! ## What comes back -/

def User.members :=
  Fields.cons (A := Snowflake) "id" <| .cons (A := String) "username" <|
  .cons (A := String) "discriminator" <| .cons (A := Option String) "avatar" <|
  .cons (A := Bool) "bot" <| .cons (A := Bool) "system" <| .cons (A := Bool) "mfa_enabled" <|
  .cons (A := Option String) "banner" <| .cons (A := Option UInt16) "accent_color" <|
  .cons (A := String) "locale" <| .cons (A := Bool) "verified" <|
  .cons (A := Option String) "email" <| .cons (A := UserFlags) "flags" <|
  .cons (A := PremiumType) "premium_type" <| .cons (A := UserFlags) "public_flags" <|
  .cons (A := Option String) "avatar_decoration" .nil

instance : NormalForm User :=
  User.members.solid
    (fun u => (u.id, u.username, u.discriminator, u.avatar, u.bot, u.system, u.mfaEnabled,
      u.banner, u.accentColor, u.locale, u.verified, u.email, u.flags, u.premiumType,
      u.publicFlags, u.avatarDecoration, ()))
    (fun (id, username, discriminator, avatar, bot, system, mfaEnabled, banner, accentColor,
        locale, verified, email, flags, premiumType, publicFlags, avatarDecoration, _) =>
      { id, username, discriminator, avatar, bot, system, mfaEnabled, banner, accentColor,
        locale, verified, email, flags, premiumType, publicFlags, avatarDecoration })
    (fun _ => rfl) (fun _ => rfl) rfl fun _ => rfl

/-- **A user** comes back without its global name. -/
theorem User.norm_eq (u : User) : NormalForm.norm u = { u with globalName := none } := by
  show User.mk (MemberForm.norm u.id) (MemberForm.norm u.username)
    (MemberForm.norm u.discriminator) none (MemberForm.norm u.avatar) (MemberForm.norm u.bot)
    (MemberForm.norm u.system) (MemberForm.norm u.mfaEnabled) (MemberForm.norm u.banner)
    (MemberForm.norm u.accentColor) (MemberForm.norm u.locale) (MemberForm.norm u.verified)
    (MemberForm.norm u.email) (MemberForm.norm u.flags) (MemberForm.norm u.premiumType)
    (MemberForm.norm u.publicFlags) (MemberForm.norm u.avatarDecoration) = _
  simp only [norm_whole, norm_optional_whole]

def PartialMember.members :=
  Fields.cons (A := Option User) "user" <| .cons (A := Option String) "nick" <|
  .cons (A := Option String) "avatar" <| .cons (A := Option (List Snowflake)) "roles" <|
  .cons (A := String) "joined_at" <| .cons (A := Option String) "premium_since" <|
  .cons (A := Option String) "communication_disabled_until" <| .cons (A := Bool) "deaf" <|
  .cons (A := Bool) "mute" <| .cons (A := Option Bool) "pending" <|
  .cons (A := Option String) "permissions" .nil

def PartialMember.fields (m : PartialMember) :=
  (m.user, m.nick, m.avatar, m.roles, m.joinedAt, m.premiumSince, m.communicationDisabledUntil,
    m.deaf, m.mute, m.pending, m.permissions, ())

/-- Writing `communication_disabled_until` twice is writing it once. -/
theorem PartialMember.toJson_eq (m : PartialMember) :
    m.toJson = writeAll .null (PartialMember.members.puts m.fields) := by
  have hmem : ("communication_disabled_until", serialize m.communicationDisabledUntil) ∈
      PartialMember.members.puts m.fields := List.mem_of_getElem? (i := 6) rfl
  refine writeAll_again (PartialMember.members.nodup_puts m.fields) hmem ?_ ?_
  · intro j
    cases m.communicationDisabledUntil with
    | none => rfl
    | some s => rfl
  · cases m.communicationDisabledUntil with
    | none => simp [serialize, Member.put]
    | some s => simp [serialize, Member.put, Value.write]

/-- And reading it twice is reading it once. -/
theorem PartialMember.fromJson_eq (j : Json) :
    PartialMember.fromJson j = PartialMember.members.read j
      fun (user, nick, avatar, roles, joinedAt, premiumSince, communicationDisabledUntil, deaf,
          mute, pending, permissions, _) =>
        some { user, nick, avatar, roles, joinedAt, premiumSince, deaf, mute, pending, permissions,
               communicationDisabledUntil } := by
  show PartialMember.fromJson j = (deserialize j "user").bind _
  unfold PartialMember.fromJson
  refine bind_congr fun user => bind_congr fun nick => bind_congr fun avatar =>
    bind_congr fun roles => bind_congr fun joinedAt => bind_congr fun premiumSince => ?_
  cases hread : deserialize (A := Option String) j "communication_disabled_until" with
  | none =>
      show none = (deserialize (A := Option String) j "communication_disabled_until").bind _
      rw [hread]
      rfl
  | some s =>
      show _ = (deserialize (A := Option String) j "communication_disabled_until").bind _
      rw [hread]
      rfl

instance : NormalForm PartialMember :=
  PartialMember.members.solid PartialMember.fields
    (fun (user, nick, avatar, roles, joinedAt, premiumSince, communicationDisabledUntil, deaf,
        mute, pending, permissions, _) =>
      { user, nick, avatar, roles, joinedAt, premiumSince, deaf, mute, pending, permissions,
        communicationDisabledUntil })
    PartialMember.toJson_eq PartialMember.fromJson_eq rfl fun m => by
      show (m.user.isNone && (m.nick.isNone && (m.avatar.isNone && (m.roles.isNone &&
        (false && (m.premiumSince.isNone && (m.communicationDisabledUntil.isNone && (false &&
        (false && (m.pending.isNone && (m.permissions.isNone && true))))))))))) = false
      simp

/-- **A member** comes back with what is left of its user. -/
theorem PartialMember.norm_eq (m : PartialMember) :
    NormalForm.norm m = { m with user := m.user.map NormalForm.norm } := by
  show PartialMember.mk (MemberForm.norm m.user) (MemberForm.norm m.nick)
    (MemberForm.norm m.avatar) (MemberForm.norm m.roles) (MemberForm.norm m.joinedAt)
    (MemberForm.norm m.premiumSince) (MemberForm.norm m.deaf) (MemberForm.norm m.mute)
    (MemberForm.norm m.pending) (MemberForm.norm m.permissions)
    (MemberForm.norm m.communicationDisabledUntil) = _
  simp only [norm_whole, norm_optional_whole, norm_optional (A := User) fun _ => rfl]

end

end Ekizu.Messages

import Ekizu.Components.NormalForm
import Ekizu.Requests.MessageFields

/-!
# Embeds through JSON

The decoders of `embed.cpp`, and what is left of an embed that is written and read.  An
image, a thumbnail, a video or a provider of which nothing is set is written as null.

## Main results

* `Embed.norm_eq` — what is left of an embed.
-/

namespace Ekizu.Requests

open Components Lib Lib.Json

/-! ## Decoders -/

def EmbedProvider.fromJson (j : Json) : Option EmbedProvider := do
  let name ← deserialize j "name"
  let url ← deserialize j "url"
  return { name, url }

def EmbedAuthor.fromJson (j : Json) : Option EmbedAuthor := do
  let name ← deserialize j "name"
  let url ← deserialize j "url"
  let iconUrl ← deserialize j "icon_url"
  let proxyIconUrl ← deserialize j "proxy_icon_url"
  return { name, url, iconUrl, proxyIconUrl }

def EmbedFooter.fromJson (j : Json) : Option EmbedFooter := do
  let text ← deserialize j "text"
  let iconUrl ← deserialize j "icon_url"
  let proxyIconUrl ← deserialize j "proxy_icon_url"
  return { text, iconUrl, proxyIconUrl }

def EmbedField.fromJson (j : Json) : Option EmbedField := do
  let name ← deserialize j "name"
  let value ← deserialize j "value"
  let inline_ ← deserialize j "inline"
  return { name, value, inline_ }

instance : Value EmbedProvider where
  write := EmbedProvider.toJson
  get := EmbedProvider.fromJson
  init := {}

instance : Value EmbedAuthor where
  write := EmbedAuthor.toJson
  get := EmbedAuthor.fromJson
  init := {}

instance : Value EmbedFooter where
  write := EmbedFooter.toJson
  get := EmbedFooter.fromJson
  init := {}

instance : Value EmbedField where
  write := EmbedField.toJson
  get := EmbedField.fromJson
  init := {}

section

variable [FloatCast]

def EmbedImage.fromJson (j : Json) : Option EmbedImage := do
  let url ← deserialize j "url"
  let proxyUrl ← deserialize j "proxy_url"
  let height ← deserialize j "height"
  let width ← deserialize j "width"
  return { url, proxyUrl, height, width }

instance : Value EmbedImage where
  write := EmbedImage.toJson
  get := EmbedImage.fromJson
  init := {}

def Embed.fromJson (j : Json) : Option Embed := do
  let title ← deserialize j "title"
  let description ← deserialize j "description"
  let url ← deserialize j "url"
  let timestamp ← deserialize j "timestamp"
  let color ← deserialize j "color"
  let author ← deserialize j "author"
  let footer ← deserialize j "footer"
  let thumbnail ← deserialize j "thumbnail"
  let image ← deserialize j "image"
  let provider ← deserialize j "provider"
  let video ← deserialize j "video"
  let fields ← deserialize j "fields"
  return { title, description, url, timestamp, color, footer, image, thumbnail, video, provider,
           author, fields }

instance : Value Embed where
  write := Embed.toJson
  get := Embed.fromJson
  init := {}

end

/-! ## The parts of an embed -/

instance : NormalForm EmbedProvider :=
  (Fields.cons (A := Option String) "name" <| .cons (A := Option String) "url" .nil).normalForm
    (fun p => (p.name, p.url, ())) (fun (name, url, _) => { name, url })
    (fun _ => rfl) (fun _ => rfl) rfl fun p hblank => by
      obtain ⟨name, url⟩ := p
      have hnone : (name.isNone && (url.isNone && true)) = true := hblank
      simp only [Bool.and_eq_true, Option.isNone_iff_eq_none] at hnone
      obtain ⟨rfl, rfl, -⟩ := hnone
      rfl

instance : NormalForm EmbedAuthor :=
  (Fields.cons (A := String) "name" <| .cons (A := Option String) "url" <|
    .cons (A := Option String) "icon_url" <| .cons (A := Option String) "proxy_icon_url"
    .nil).solid (fun a => (a.name, a.url, a.iconUrl, a.proxyIconUrl, ()))
    (fun (name, url, iconUrl, proxyIconUrl, _) => { name, url, iconUrl, proxyIconUrl })
    (fun _ => rfl) (fun _ => rfl) rfl fun _ => rfl

instance : Whole EmbedAuthor where
  norm_eq a := by
    show EmbedAuthor.mk (MemberForm.norm a.name) (MemberForm.norm a.url)
      (MemberForm.norm a.iconUrl) (MemberForm.norm a.proxyIconUrl) = a
    simp only [norm_whole, norm_optional_whole]
  not_blank _ := rfl

instance : NormalForm EmbedFooter :=
  (Fields.cons (A := String) "text" <| .cons (A := Option String) "icon_url" <|
    .cons (A := Option String) "proxy_icon_url" .nil).solid
    (fun f => (f.text, f.iconUrl, f.proxyIconUrl, ()))
    (fun (text, iconUrl, proxyIconUrl, _) => { text, iconUrl, proxyIconUrl })
    (fun _ => rfl) (fun _ => rfl) rfl fun _ => rfl

instance : Whole EmbedFooter where
  norm_eq f := by
    show EmbedFooter.mk (MemberForm.norm f.text) (MemberForm.norm f.iconUrl)
      (MemberForm.norm f.proxyIconUrl) = f
    simp only [norm_whole, norm_optional_whole]
  not_blank _ := rfl

instance : NormalForm EmbedField :=
  (Fields.cons (A := String) "name" <| .cons (A := String) "value" <|
    .cons (A := Option Bool) "inline" .nil).solid (fun f => (f.name, f.value, f.inline_, ()))
    (fun (name, value, inline_, _) => { name, value, inline_ })
    (fun _ => rfl) (fun _ => rfl) rfl fun _ => rfl

instance : Whole EmbedField where
  norm_eq f := by
    show EmbedField.mk (MemberForm.norm f.name) (MemberForm.norm f.value)
      (MemberForm.norm f.inline_) = f
    simp only [norm_whole, norm_optional_whole]
  not_blank _ := rfl

/-- A provider of which something is set comes back as it was. -/
theorem EmbedProvider.norm_eq (p : EmbedProvider) : NormalForm.norm p = p := by
  show EmbedProvider.mk (MemberForm.norm p.name) (MemberForm.norm p.url) = p
  simp only [norm_optional_whole]

/-- Something is set. -/
def EmbedProvider.isSet (p : EmbedProvider) : Bool := p.name.isSome || p.url.isSome

theorem EmbedProvider.blank_eq (p : EmbedProvider) : (!NormalForm.blank p) = p.isSet := by
  obtain ⟨name, url⟩ := p
  show (!(name.isNone && (url.isNone && true))) = _
  cases name <;> cases url <;> rfl

section

variable [FloatCast]

instance : NormalForm EmbedImage :=
  (Fields.cons (A := Option String) "url" <| .cons (A := Option String) "proxy_url" <|
    .cons (A := Option UInt16) "height" <| .cons (A := Option UInt16) "width" .nil).normalForm
    (fun i => (i.url, i.proxyUrl, i.height, i.width, ()))
    (fun (url, proxyUrl, height, width, _) => { url, proxyUrl, height, width })
    (fun _ => rfl) (fun _ => rfl) rfl fun i hblank => by
      obtain ⟨url, proxyUrl, height, width⟩ := i
      have hnone : (url.isNone && (proxyUrl.isNone && (height.isNone && (width.isNone && true))))
        = true := hblank
      simp only [Bool.and_eq_true, Option.isNone_iff_eq_none] at hnone
      obtain ⟨rfl, rfl, rfl, rfl, -⟩ := hnone
      rfl

theorem EmbedImage.norm_eq (i : EmbedImage) : NormalForm.norm i = i := by
  show EmbedImage.mk (MemberForm.norm i.url) (MemberForm.norm i.proxyUrl)
    (MemberForm.norm i.height) (MemberForm.norm i.width) = i
  simp only [norm_optional_whole]

/-! ## Embeds -/

def Embed.members :=
  Fields.cons (A := Option String) "title" <| .cons (A := Option String) "description" <|
  .cons (A := Option String) "url" <| .cons (A := Option String) "timestamp" <|
  .cons (A := Option UInt16) "color" <| .cons (A := Option EmbedAuthor) "author" <|
  .cons (A := Option EmbedFooter) "footer" <| .cons (A := Option EmbedThumbnail) "thumbnail" <|
  .cons (A := Option EmbedImage) "image" <| .cons (A := Option EmbedProvider) "provider" <|
  .cons (A := Option EmbedVideo) "video" <| .cons (A := Option (List EmbedField)) "fields" .nil

def Embed.fields_ (e : Embed) :=
  (e.title, e.description, e.url, e.timestamp, e.color, e.author, e.footer, e.thumbnail, e.image,
    e.provider, e.video, e.fields, ())

theorem Embed.toJson_eq (e : Embed) :
    e.toJson = writeAll .null (Embed.members.puts e.fields_) := by
  unfold Embed.toJson
  simp only [show EmbedAuthor.toJson = Value.write from rfl,
    show EmbedFooter.toJson = Value.write from rfl, show EmbedImage.toJson = Value.write from rfl,
    show EmbedProvider.toJson = Value.write from rfl,
    show writeList EmbedField.toJson = Value.write from rfl, serializeOptional_eq]
  rfl

instance : NormalForm Embed :=
  Embed.members.normalForm Embed.fields_
    (fun (title, description, url, timestamp, color, author, footer, thumbnail, image, provider,
        video, fields, _) =>
      { title, description, url, timestamp, color, footer, image, thumbnail, video, provider,
        author, fields })
    Embed.toJson_eq (fun _ => rfl) rfl fun e hblank => by
      obtain ⟨title, description, url, timestamp, color, footer, image, thumbnail, video,
        provider, author, fields⟩ := e
      have hnone : (title.isNone && (description.isNone && (url.isNone && (timestamp.isNone &&
        (color.isNone && (author.isNone && (footer.isNone && (thumbnail.isNone &&
        (image.isNone && (provider.isNone && (video.isNone && (fields.isNone && true))))))))))))
        = true := hblank
      simp only [Bool.and_eq_true, Option.isNone_iff_eq_none] at hnone
      obtain ⟨rfl, rfl, rfl, rfl, rfl, rfl, rfl, rfl, rfl, rfl, rfl, rfl, -⟩ := hnone
      rfl

/-- Something is set. -/
def EmbedImage.isSet (i : EmbedImage) : Bool :=
  i.url.isSome || i.proxyUrl.isSome || i.height.isSome || i.width.isSome

theorem EmbedImage.blank_eq (i : EmbedImage) : (!NormalForm.blank i) = i.isSet := by
  obtain ⟨url, proxyUrl, height, width⟩ := i
  show (!(url.isNone && (proxyUrl.isNone && (height.isNone && (width.isNone && true))))) = _
  cases url <;> cases proxyUrl <;> cases height <;> cases width <;> rfl

/-- What is left of an embed: without the images and the provider of which nothing is set. -/
def Embed.norm (e : Embed) : Embed :=
  { e with
    thumbnail := e.thumbnail.filter EmbedImage.isSet
    image := e.image.filter EmbedImage.isSet
    provider := e.provider.filter EmbedProvider.isSet
    video := e.video.filter EmbedImage.isSet }

/-- **An embed** comes back as its normal form. -/
theorem Embed.norm_eq (e : Embed) : NormalForm.norm e = e.norm := by
  show Embed.mk (MemberForm.norm e.title) (MemberForm.norm e.description) (MemberForm.norm e.url)
    (MemberForm.norm e.timestamp) (MemberForm.norm e.color) (MemberForm.norm e.footer)
    (MemberForm.norm (A := Option EmbedImage) e.image)
    (MemberForm.norm (A := Option EmbedImage) e.thumbnail)
    (MemberForm.norm (A := Option EmbedImage) e.video) (MemberForm.norm e.provider)
    (MemberForm.norm e.author) (MemberForm.norm e.fields) = _
  simp only [norm_optional_whole, norm_optional_filter EmbedImage.norm_eq,
    norm_optional_filter EmbedProvider.norm_eq, EmbedImage.blank_eq, EmbedProvider.blank_eq]
  rfl

end

end Ekizu.Requests

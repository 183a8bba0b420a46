import Ekizu.Lib.Multipart
import Ekizu.Requests.MessageFields
import Ekizu.Rest.Http

/-!
# Creating a message

`CreateMessage` of `create_message.hpp` and `create_message.cpp`, and the encoder of
`multipart_form_data.hpp`.  The number of the last boundary is counted for the whole
process.  What the JSON library does with texts is a parameter.
-/

namespace Ekizu.Requests

open Components Lib Lib.Json Rest
open Lib.Multipart (ascii crlf)

/-- `json::parse` without exceptions, where `none` is a discarded value; `dump` with
replacements for what is no UTF-8; and the string that a byte string then stands for. -/
structure JsonLibrary where
  parse : Text → Option Json
  dump : Json → Text
  text : Text → String

/-- `erase` on a key; only an object has members, and anything else throws. -/
def erase (key : String) : Json → Option Json
  | .object members => some (.object (members.filter fun member => member.1 != key))
  | _ => none

theorem exists_erase_iff {j : Json} {key : String} :
    (∃ j', erase key j = some j') ↔ j.isObject = true := by
  cases j with
  | object => exact iff_of_true ⟨_, rfl⟩ rfl
  | null | boolean | unsigned | integer | float | string | array =>
      exact iff_of_false (by rintro ⟨_, ⟨⟩⟩) (by simp [isObject])

theorem isObject_erase {j j' : Json} {key : String} (h : erase key j = some j') :
    j'.isObject = true := by
  cases j with
  | object =>
      obtain rfl := Option.some.inj h
      rfl
  | null | boolean | unsigned | integer | float | string | array => cases h

theorem isObject_bind_erase {made : Option Json} {key : String} {j : Json}
    (h : made.bind (erase key) = some j) : j.isObject = true := by
  obtain ⟨out, -, herase⟩ := Option.bind_eq_some_iff.mp h
  exact isObject_erase herase

/-- A member is erased wherever an object was made. -/
theorem exists_bind_erase_iff {made : Option Json} {key : String} :
    (∃ j, made.bind (erase key) = some j) ↔ ∃ j, made = some j ∧ j.isObject = true := by
  cases made with
  | none => simp
  | some j => simpa using exists_erase_iff

theorem Written.exists_erased_iff [FloatCast] {components : Option (List MessageComponent)}
    {puts : List (String × Put)} {present : List Bool} (h : Written components puts present)
    {key : String} :
    (∃ j, (writeAll .null puts).bind (erase key) = some j) ↔
      true ∈ present ∧ componentsEncodable components = true :=
  exists_bind_erase_iff.trans h.exists_object_iff

/-- A member is set wherever an object was made. -/
theorem exists_bind_set_iff {made : Option Json} {key : String} {v : Json}
    (hobject : ∀ j, made = some j → j.isObject = true) :
    (∃ payload, (made.bind fun j => j.set key v) = some payload) ↔ ∃ j, made = some j := by
  cases made with
  | none => simp
  | some j => exact iff_of_true (exists_set_iff.mpr (.inr (hobject j rfl))) ⟨j, rfl⟩

/-- `fmt::format("{}", n)` of a number of 64 bits. -/
def formatNumber (n : UInt64) : Text := Decimal.toDecimal n

/-- `UploadAttachment`. -/
structure UploadAttachment where
  filename : Text
  data : Text
  contentType : Option Text := none
  description : Option Text := none
  deriving DecidableEq

/-! ## The form -/

/-- The boundary, and the number that it was made from. -/
def makeMultipartBoundary (ctr : UInt64) : Text × UInt64 :=
  let n := ctr + 1
  (ascii "----ekizu-multipart-" ++ formatNumber n, n)

def UploadAttachment.contentTypeText (f : UploadAttachment) : Text :=
  f.contentType.getD (ascii "application/octet-stream")

/-- One turn of the loop over the files. -/
def encodeFile (boundary : Text) (i : Nat) (f : UploadAttachment) : Text :=
  ascii "--" ++ boundary ++ ascii "\r\n" ++
    ascii "Content-Disposition: form-data; name=\"files[" ++ formatNumber (UInt64.ofNat i) ++
    ascii "]\"; " ++ ascii "filename=\"" ++ f.filename ++ ascii "\"\r\n" ++
    ascii "Content-Type: " ++ f.contentTypeText ++ ascii "\r\n" ++ ascii "\r\n" ++
    f.data ++ crlf

def encodeMultipartFormData (boundary payloadJson : Text) (files : List UploadAttachment) :
    Text :=
  ascii "--" ++ boundary ++ ascii "\r\n" ++
    ascii "Content-Disposition: form-data; name=\"payload_json\"\r\n" ++
    ascii "Content-Type: application/json\r\n" ++ ascii "\r\n" ++ payloadJson ++ ascii "\r\n" ++
    files.zipIdx.flatMap (fun (f, i) => encodeFile boundary i f) ++
    ascii "--" ++ boundary ++ ascii "--\r\n"

/-! ## The request -/

/-- `attachments_json_from_uploads`. -/
def attachmentsJsonFromUploads (J : JsonLibrary) (uploads : List UploadAttachment) : Json :=
  .array <| uploads.zipIdx.map fun (u, i) =>
    .object <|
      [("id", .string (UInt64.ofNat i).toNat.repr), ("filename", .string (J.text u.filename))] ++
        match u.description with
        | some description => [("description", .string (J.text description))]
        | none => []

/-- The checks of `send`, which are those of both requests. -/
def acceptsUploads (J : JsonLibrary) (uploads : List UploadAttachment)
    (payloadJson : Option Text) : Bool :=
  uploads.length ≤ 10 &&
    uploads.all (fun a =>
      !a.filename.isEmpty && !a.filename.contains 13 && !a.filename.contains 10 &&
        (a.description.all fun description => description.length ≤ 1024)) &&
    (uploads.isEmpty || payloadJson.all fun text => (J.parse text).isSome)

/-- What is checked of the number of the files, of their names and of `payload_json`. -/
theorem checks_of_acceptsUploads {J : JsonLibrary} {uploads : List UploadAttachment}
    {payloadJson : Option Text} (h : acceptsUploads J uploads payloadJson = true) :
    uploads.length ≤ 10 ∧ (∀ f ∈ uploads, 13 ∉ f.filename) ∧
      (uploads ≠ [] → ∀ text ∈ payloadJson, (J.parse text).isSome = true) := by
  simp only [acceptsUploads, Bool.and_eq_true, Bool.or_eq_true, List.all_eq_true,
    decide_eq_true_eq, List.isEmpty_iff, Option.all_eq_true] at h
  obtain ⟨⟨hlen, hnames⟩, hpayload⟩ := h
  refine ⟨hlen, ?_, fun hsome => hpayload.resolve_left hsome⟩
  intro f hf
  obtain ⟨⟨⟨-, hname⟩, -⟩, -⟩ := hnames f hf
  simpa using hname

/-- The payload of a form, when `payload_json` is one: a text that spells nothing counts as an
empty object. -/
theorem exists_parsed_set_iff {J : JsonLibrary} {text : Text} {key : String} {v : Json}
    (h : (J.parse text).isSome = true) :
    (∃ payload, ((J.parse text).getD (.object [])).set key v = some payload) ↔
      ∀ j ∈ J.parse text, j.isNull = true ∨ j.isObject = true := by
  obtain ⟨j, hj⟩ := Option.isSome_iff_exists.mp h
  rw [hj, Option.getD_some, exists_set_iff]
  simp

structure CreateMessage where
  channelId : Snowflake
  fields : CreateMessageFields := {}
  uploadAttachments : List UploadAttachment := []

/-- What becomes of `send`: the handler is called with `invalid_argument`, an exception
leaves it, or a request goes to the sender. -/
inductive SendOutcome where
  | invalidArgument
  | thrown
  | sent (req : HttpRequest)

namespace CreateMessage

/-- The checks of `send`. -/
def accepts (J : JsonLibrary) (m : CreateMessage) : Bool :=
  acceptsUploads J m.uploadAttachments m.fields.payloadJson

variable [FloatCast]

/-- The fields as an object without the member `payload_json`. -/
def fieldsJson (J : JsonLibrary) (m : CreateMessage) : Option Json := do
  let j ← m.fields.toJson J.text
  erase "payload_json" j

/-- The payload of a form: `payload_json` or else the fields, with the attachments. -/
def payload (J : JsonLibrary) (m : CreateMessage) : Option Json :=
  let payload := match m.fields.payloadJson with
    | some text => some ((J.parse text).getD (.object []))
    | none => m.fieldsJson J
  payload.bind fun payload =>
    payload.set "attachments" (attachmentsJsonFromUploads J m.uploadAttachments)

/-- `/channels/{}/messages`. -/
def target (m : CreateMessage) : Text :=
  ascii "/channels/" ++ formatNumber m.channelId.id ++ ascii "/messages"

/-- `operator HttpRequest`, and the number of the last boundary after it. -/
def toHttpRequest (J : JsonLibrary) (m : CreateMessage) (ctr : UInt64) :
    Option HttpRequest × UInt64 :=
  if m.uploadAttachments.isEmpty then
    let body := match m.fields.payloadJson with
      | some text => some text
      | none => (m.fieldsJson J).map J.dump
    (body.map fun body =>
      { method := .post
        target := m.target
        body
        fields := Fields.set [] "content-type" (ascii "application/json") }, ctr)
  else
    let (boundary, ctr) := makeMultipartBoundary ctr
    ((m.payload J).map fun payload =>
      { method := .post
        target := m.target
        body := encodeMultipartFormData boundary (J.dump payload) m.uploadAttachments
        fields :=
          Fields.set [] "content-type" (ascii "multipart/form-data; boundary=" ++ boundary) },
      ctr)

def send (J : JsonLibrary) (m : CreateMessage) (ctr : UInt64) : SendOutcome × UInt64 :=
  if m.accepts J then
    match m.toHttpRequest J ctr with
    | (some req, ctr) => (.sent req, ctr)
    | (none, ctr) => (.thrown, ctr)
  else (.invalidArgument, ctr)

end CreateMessage

end Ekizu.Requests

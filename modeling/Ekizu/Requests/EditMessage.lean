import Ekizu.Requests.FormRoundTrip

/-!
# Editing a message

`EditMessage` of `edit_message.hpp` and `edit_message.cpp`, and what the two message
requests make of a state that passes the checks of `send`.

## Main results

* `EditMessage.exists_payload_iff`, `EditMessage.exists_plainJson_iff` — which payloads of
  an edit can be built.
* `attachmentEntries_describe` — the metadata of the uploads.
* `promisedRequests_iff` — when the requests are built as promised.
-/

namespace Ekizu.Requests

open Components Lib Lib.Json Rest
open Lib.Multipart (ascii)

structure EditMessage where
  channelId : Snowflake
  messageId : Snowflake
  fields : EditMessageFields := {}
  uploadAttachments : List UploadAttachment := []
  keepAttachmentIds : Option (List Snowflake) := none

/-- `attachments_json_from_keep_ids`. -/
def attachmentsJsonFromKeepIds (keepIds : List Snowflake) : Json :=
  .array <| keepIds.map fun id => .object [("id", .string id.id.toNat.repr)]

/-- What the loops over the elements of an array see. -/
def elementsOf : Json → List Json
  | .array elements => elements
  | _ => []

section

variable [FloatCast]

namespace EditMessage

/-- The checks of `send`. -/
def accepts (J : JsonLibrary) (m : EditMessage) : Bool :=
  acceptsUploads J m.uploadAttachments m.fields.payloadJson

/-- The fields as an object without the member `payload_json`. -/
def fieldsJson (J : JsonLibrary) (m : EditMessage) : Option Json := do
  let j ← m.fields.toJson J.text
  erase "payload_json" j

/-- The body without uploads, where `payload_json` is not used. -/
def plainJson (J : JsonLibrary) (m : EditMessage) : Option Json := do
  let j ← m.fieldsJson J
  match m.keepAttachmentIds with
  | some keepIds => j.set "attachments" (attachmentsJsonFromKeepIds keepIds)
  | none => erase "attachments" j

/-- The payload of a form. -/
def payload (J : JsonLibrary) (m : EditMessage) : Option Json :=
  match m.fields.payloadJson with
  | some text =>
      ((J.parse text).getD (.object [])).set "attachments"
        (attachmentsJsonFromUploads J m.uploadAttachments)
  | none => do
      let payload ← m.fieldsJson J
      let kept := match m.keepAttachmentIds with
        | some keepIds => elementsOf (attachmentsJsonFromKeepIds keepIds)
        | none => []
      payload.set "attachments"
        (.array (kept ++ elementsOf (attachmentsJsonFromUploads J m.uploadAttachments)))

/-- `/channels/{}/messages/{}`. -/
def target (m : EditMessage) : Text :=
  ascii "/channels/" ++ formatNumber m.channelId.id ++ ascii "/messages/" ++
    formatNumber m.messageId.id

/-- `operator HttpRequest`, and the number of the last boundary after it. -/
def toHttpRequest (J : JsonLibrary) (m : EditMessage) (ctr : UInt64) :
    Option HttpRequest × UInt64 :=
  if m.uploadAttachments.isEmpty then
    let body := match m.fields.payloadJson with
      | some text => some text
      | none => (m.plainJson J).map J.dump
    (body.map fun body =>
      { method := .patch
        target := m.target
        body
        fields := Fields.set [] "content-type" (ascii "application/json") }, ctr)
  else
    let (boundary, ctr) := makeMultipartBoundary ctr
    ((m.payload J).map fun payload =>
      { method := .patch
        target := m.target
        body := encodeMultipartFormData boundary (J.dump payload) m.uploadAttachments
        fields :=
          Fields.set [] "content-type" (ascii "multipart/form-data; boundary=" ++ boundary) },
      ctr)

end EditMessage

end

/-! ## What the requests promise -/

/-- The entries describe the uploads, one each: the number of the upload as its id, the name
of the file and its description. -/
def Describe (J : JsonLibrary) (entries : List Json) (uploads : List UploadAttachment) : Prop :=
  entries.length = uploads.length ∧
    ∀ (i : Nat) (u : UploadAttachment), uploads[i]? = some u →
      ∃ entry : Json, entries[i]? = some entry ∧
        entry.find? "id" = some (.string i.repr) ∧
        entry.find? "filename" = some (.string (J.text u.filename)) ∧
        entry.find? "description" = u.description.map fun text => .string (J.text text)

/-- The body of a request: `payload_json` as it stands or an object, and with uploads a form
with an object whose attachments are those that are kept and then the uploads. -/
structure Promised (J : JsonLibrary) (uploads : List UploadAttachment) (payloadJson : Option Text)
    (kept : List Json) (boundary body : Text) : Prop where
  verbatim : uploads = [] → ∀ text ∈ payloadJson, body = text
  plain : uploads = [] → payloadJson = none → ∃ j, j.isObject = true ∧ body = J.dump j
  form : uploads ≠ [] → ∃ j entries, j.isObject = true ∧
    body = encodeMultipartFormData boundary (J.dump j) uploads ∧
    j.find? "attachments" = some (.array (kept ++ entries)) ∧ Describe J entries uploads

section

variable [FloatCast]

/-- A request is built without an exception, and as promised. -/
def CreateMessage.Promises (J : JsonLibrary) (m : CreateMessage) (ctr : UInt64) : Prop :=
  ∃ req, (m.toHttpRequest J ctr).1 = some req ∧
    Promised J m.uploadAttachments m.fields.payloadJson [] (makeMultipartBoundary ctr).1 req.body

/-- The attachments that an edit keeps; with `payload_json` there are none. -/
def EditMessage.kept (m : EditMessage) : List Json :=
  match m.fields.payloadJson, m.keepAttachmentIds with
  | none, some keepIds => elementsOf (attachmentsJsonFromKeepIds keepIds)
  | _, _ => []

def EditMessage.Promises (J : JsonLibrary) (m : EditMessage) (ctr : UInt64) : Prop :=
  ∃ req, (m.toHttpRequest J ctr).1 = some req ∧
    Promised J m.uploadAttachments m.fields.payloadJson m.kept (makeMultipartBoundary ctr).1
      req.body

/-! ## The payloads of an edit -/

namespace EditMessage

variable {J : JsonLibrary} {m : EditMessage}

/-- Without `payload_json`, there is an object exactly if a field is set. -/
theorem exists_fieldsJson_iff (h : m.fields.payloadJson = none) :
    (∃ j, m.fieldsJson J = some j) ↔ m.fields.isSet = true ∧ m.fields.Encodable := by
  rw [← EditMessageFields.mem_present_iff h]
  exact (m.fields.written J.text).exists_erased_iff

theorem isObject_fieldsJson {j : Json} (h : m.fieldsJson J = some j) : j.isObject = true :=
  isObject_bind_erase h

/-- The attachments are written or erased wherever there is an object. -/
theorem exists_plainJson_iff :
    (∃ j, m.plainJson J = some j) ↔ ∃ j, m.fieldsJson J = some j := by
  unfold plainJson
  cases m.keepAttachmentIds with
  | some keepIds => exact exists_bind_set_iff fun j => isObject_fieldsJson
  | none =>
      constructor
      · rintro ⟨out, hout⟩
        obtain ⟨j, hj, -⟩ := Option.bind_eq_some_iff.mp hout
        exact ⟨j, hj⟩
      · rintro ⟨j, hj⟩
        obtain ⟨out, hout⟩ := exists_erase_iff.mpr (isObject_fieldsJson hj)
        exact ⟨out, Option.bind_eq_some_iff.mpr ⟨j, hj, hout⟩⟩

theorem isObject_plainJson {j : Json} (h : m.plainJson J = some j) : j.isObject = true := by
  unfold plainJson at h
  obtain ⟨fields, -, hout⟩ := Option.bind_eq_some_iff.mp h
  cases hkeep : m.keepAttachmentIds with
  | some keepIds =>
      rw [hkeep] at hout
      exact isObject_set hout
  | none =>
      rw [hkeep] at hout
      exact isObject_erase hout

/-- The payload is an object: `payload_json` spells one, or `null`, or else a field is set
and the fields can be encoded. -/
def HasPayload (J : JsonLibrary) (m : EditMessage) : Prop :=
  match m.fields.payloadJson with
  | some text => ∀ j ∈ J.parse text, j.isNull = true ∨ j.isObject = true
  | none => m.fields.isSet = true ∧ m.fields.Encodable

/-- **Which payloads can be built**, where `payload_json` spells something. -/
theorem exists_payload_iff (h : ∀ text ∈ m.fields.payloadJson, (J.parse text).isSome = true) :
    (∃ payload, m.payload J = some payload) ↔ m.HasPayload J := by
  unfold payload HasPayload
  cases htext : m.fields.payloadJson with
  | some text => exact exists_parsed_set_iff (h text htext)
  | none =>
      rw [← exists_fieldsJson_iff (J := J) htext]
      exact exists_bind_set_iff fun j => isObject_fieldsJson

/-- The payload lists what is kept, and then the uploads. -/
theorem attachments_payload {payload : Json} (h : m.payload J = some payload) :
    payload.isObject = true ∧ payload.find? "attachments" =
      some (.array (m.kept ++ elementsOf (attachmentsJsonFromUploads J m.uploadAttachments))) := by
  unfold EditMessage.payload at h
  unfold kept
  cases htext : m.fields.payloadJson with
  | some text =>
      rw [htext] at h
      exact ⟨isObject_set h, (find?_set h).trans (if_pos rfl)⟩
  | none =>
      rw [htext] at h
      obtain ⟨j, -, hset⟩ := Option.bind_eq_some_iff.mp h
      refine ⟨isObject_set hset, (find?_set hset).trans ?_⟩
      rw [if_pos rfl]
      cases m.keepAttachmentIds <;> rfl

end EditMessage

/-- The payload of a new message lists the uploads. -/
theorem CreateMessage.attachments_payload {J : JsonLibrary} {m : CreateMessage} {payload : Json}
    (h : m.payload J = some payload) :
    payload.isObject = true ∧ payload.find? "attachments" =
      some (.array ([] ++ elementsOf (attachmentsJsonFromUploads J m.uploadAttachments))) := by
  unfold CreateMessage.payload at h
  obtain ⟨j, -, hset⟩ := Option.bind_eq_some_iff.mp h
  exact ⟨isObject_set hset, (find?_set hset).trans (if_pos rfl)⟩

end

/-! ## Requests as promised -/

section

variable {J : JsonLibrary} {uploads : List UploadAttachment} {payloadJson : Option Text}
  {kept : List Json} {boundary : Text}

/-- The entry that an upload gets in `attachments_json_from_uploads`. -/
def uploadEntry (J : JsonLibrary) (u : UploadAttachment) (i : Nat) : Json :=
  .object <|
    [("id", .string (UInt64.ofNat i).toNat.repr), ("filename", .string (J.text u.filename))] ++
      match u.description with
      | some description => [("description", .string (J.text description))]
      | none => []

/-- **The metadata of the uploads**, where their numbers are no longer than ids. -/
theorem attachmentEntries_describe (h : uploads.length ≤ 10) :
    Describe J (elementsOf (attachmentsJsonFromUploads J uploads)) uploads := by
  constructor
  · simp [elementsOf, attachmentsJsonFromUploads]
  · intro i u hu
    have hlt : i < uploads.length := (List.getElem?_eq_some_iff.mp hu).1
    have hid : (UInt64.ofNat i).toNat = i :=
      UInt64.toNat_ofNat_of_lt' (by rw [UInt64.size]; omega)
    have hentry : (elementsOf (attachmentsJsonFromUploads J uploads))[i]? =
        some (uploadEntry J u i) := by
      show (uploads.zipIdx.map fun p => uploadEntry J p.1 p.2)[i]? = some (uploadEntry J u i)
      rw [List.getElem?_map, List.getElem?_zipIdx, hu, Option.map_some, Option.map_some,
        Nat.zero_add]
    have hnumber : (uploadEntry J u i).find? "id" = some (.string i.repr) := by
      show some (Json.string (UInt64.ofNat i).toNat.repr) = _
      rw [hid]
    refine ⟨uploadEntry J u i, hentry, hnumber, rfl, ?_⟩
    unfold uploadEntry
    cases u.description <;> rfl

/-- Without uploads, `payload_json` is the body. -/
theorem promised_verbatim (text : Text) : Promised J [] (some text) kept boundary text :=
  ⟨fun _ _ htext => Option.some.inj htext, nofun, fun h => absurd rfl h⟩

/-- Without uploads and `payload_json`, the body is an object. -/
theorem exists_promised_plain {plain : Option Json}
    (hobject : ∀ j, plain = some j → j.isObject = true) :
    (∃ body, plain.map J.dump = some body ∧ Promised J [] none kept boundary body) ↔
      ∃ j, plain = some j := by
  constructor
  · rintro ⟨body, hbody, -⟩
    obtain ⟨j, hj, -⟩ := Option.map_eq_some_iff.mp hbody
    exact ⟨j, hj⟩
  · rintro ⟨j, hj⟩
    refine ⟨J.dump j, by rw [hj]; rfl, nofun, ?_, fun h => absurd rfl h⟩
    exact fun _ _ => ⟨j, hobject j hj, rfl⟩

/-- With uploads, the body is a form. -/
theorem exists_promised_form (hsome : uploads ≠ []) (hlen : uploads.length ≤ 10)
    {payload : Option Json}
    (hpayload : ∀ j, payload = some j → j.isObject = true ∧ j.find? "attachments" =
      some (.array (kept ++ elementsOf (attachmentsJsonFromUploads J uploads)))) :
    (∃ body, payload.map (fun j => encodeMultipartFormData boundary (J.dump j) uploads) =
        some body ∧ Promised J uploads payloadJson kept boundary body) ↔
      ∃ j, payload = some j := by
  constructor
  · rintro ⟨body, hbody, -⟩
    obtain ⟨j, hj, -⟩ := Option.map_eq_some_iff.mp hbody
    exact ⟨j, hj⟩
  · rintro ⟨j, hj⟩
    obtain ⟨hobject, hlist⟩ := hpayload j hj
    refine ⟨encodeMultipartFormData boundary (J.dump j) uploads, by rw [hj]; rfl,
      fun h => absurd h hsome, fun h => absurd h hsome, fun _ => ?_⟩
    exact ⟨j, _, hobject, rfl, hlist, attachmentEntries_describe hlen⟩

end

section

variable {J : JsonLibrary} {uploads : List UploadAttachment} {payloadJson : Option Text}
  {kept : List Json} {boundary : Text} {plain payload : Option Json}

/-- The body of a request: without uploads `payload_json` or the plain object, else a form
with the payload. -/
def requestBody (J : JsonLibrary) (uploads : List UploadAttachment) (payloadJson : Option Text)
    (boundary : Text) (plain payload : Option Json) : Option Text :=
  if uploads.isEmpty then
    match payloadJson with
    | some text => some text
    | none => plain.map J.dump
  else payload.map fun j => encodeMultipartFormData boundary (J.dump j) uploads

/-- **Where there is a body as promised**: where `payload_json` is passed through, or the
objects can be built. -/
theorem exists_promised_iff {HasPayload : Prop} (hlen : uploads.length ≤ 10)
    (hobject : ∀ j, plain = some j → j.isObject = true)
    (hplain : payloadJson = none → ((∃ j, plain = some j) ↔ HasPayload))
    (hlist : ∀ j, payload = some j → j.isObject = true ∧ j.find? "attachments" =
      some (.array (kept ++ elementsOf (attachmentsJsonFromUploads J uploads))))
    (hpayload : uploads ≠ [] → ((∃ j, payload = some j) ↔ HasPayload)) :
    (∃ body, requestBody J uploads payloadJson boundary plain payload = some body ∧
        Promised J uploads payloadJson kept boundary body) ↔
      uploads = [] ∧ payloadJson.isSome = true ∨ HasPayload := by
  unfold requestBody
  by_cases hnone : uploads = []
  · rw [hnone, List.isEmpty_nil, if_pos rfl]
    cases htext : payloadJson with
    | some text => exact iff_of_true ⟨_, rfl, promised_verbatim text⟩ (.inl ⟨rfl, rfl⟩)
    | none =>
        rw [← hplain htext]
        refine (exists_promised_plain hobject).trans ?_
        simp
  · have hempty : uploads.isEmpty = false := by simpa using hnone
    rw [hempty, if_neg Bool.false_ne_true, ← hpayload hnone]
    refine (exists_promised_form hnone hlen hlist).trans ?_
    simp [hnone]

end

/-- A property of the body of a request. -/
theorem exists_body_iff {req : Option HttpRequest} {P : Text → Prop} :
    (∃ r, req = some r ∧ P r.body) ↔ ∃ body, req.map (·.body) = some body ∧ P body := by
  cases req with
  | none => simp
  | some r => simp

section

variable [FloatCast] {J : JsonLibrary} {ctr : UInt64}

/-- A request can be built: without uploads from any `payload_json`, else from an object. -/
def CreateMessage.Buildable (J : JsonLibrary) (m : CreateMessage) : Prop :=
  m.uploadAttachments = [] ∧ m.fields.payloadJson.isSome = true ∨ m.HasPayload J

def EditMessage.Buildable (J : JsonLibrary) (m : EditMessage) : Prop :=
  m.uploadAttachments = [] ∧ m.fields.payloadJson.isSome = true ∨ m.HasPayload J

theorem CreateMessage.body_toHttpRequest (m : CreateMessage) :
    (m.toHttpRequest J ctr).1.map (·.body) =
      requestBody J m.uploadAttachments m.fields.payloadJson (makeMultipartBoundary ctr).1
        (m.fieldsJson J) (m.payload J) := by
  unfold toHttpRequest requestBody
  split
  · exact (Option.map_map _ _ _).trans Option.map_id'
  · exact Option.map_map _ _ _

theorem EditMessage.body_toHttpRequest (m : EditMessage) :
    (m.toHttpRequest J ctr).1.map (·.body) =
      requestBody J m.uploadAttachments m.fields.payloadJson (makeMultipartBoundary ctr).1
        (m.plainJson J) (m.payload J) := by
  unfold toHttpRequest requestBody
  split
  · exact (Option.map_map _ _ _).trans Option.map_id'
  · exact Option.map_map _ _ _

theorem CreateMessage.promises_iff {m : CreateMessage} (h : m.accepts J = true) :
    m.Promises J ctr ↔ m.Buildable J := by
  obtain ⟨hlen, -, hparses⟩ := checks_of_acceptsUploads h
  unfold Promises
  rw [exists_body_iff, body_toHttpRequest]
  refine exists_promised_iff hlen (fun j => isObject_fieldsJson) (fun htext => ?_)
    (fun j => attachments_payload) fun hsome => exists_payload_iff (hparses hsome)
  rw [exists_fieldsJson_iff htext]
  simp [HasPayload, htext]

theorem EditMessage.promises_iff {m : EditMessage} (h : m.accepts J = true) :
    m.Promises J ctr ↔ m.Buildable J := by
  obtain ⟨hlen, -, hparses⟩ := checks_of_acceptsUploads h
  unfold Promises
  rw [exists_body_iff, body_toHttpRequest]
  refine exists_promised_iff hlen (fun j => isObject_plainJson) (fun htext => ?_)
    (fun j => attachments_payload) fun hsome => exists_payload_iff (hparses hsome)
  rw [exists_plainJson_iff, exists_fieldsJson_iff (J := J) htext]
  simp [HasPayload, htext]

/-- **The requests that `send` converts are built as promised** exactly where there is an
object to build them from, or `payload_json` is passed through. -/
theorem promisedRequests_iff (J : JsonLibrary) (ctr : UInt64) :
    (∀ m : CreateMessage, (m.accepts J = true → m.Promises J ctr) ↔
      (m.accepts J = true → m.Buildable J)) ∧
    ∀ m : EditMessage, (m.accepts J = true → m.Promises J ctr) ↔
      (m.accepts J = true → m.Buildable J) := by
  constructor
  · intro m
    exact forall_congr' fun h => m.promises_iff h
  · intro m
    exact forall_congr' fun h => m.promises_iff h

end

/-- An edit that keeps an attachment and changes nothing else. -/
def keepAlone : EditMessage :=
  { channelId := ⟨7⟩, messageId := ⟨8⟩, keepAttachmentIds := some [⟨5⟩] }

/-- A file without a field, and an edit that only keeps an attachment: a member is erased from
`null`. -/
theorem promises_fileAlone :
    letI : FloatCast := ⟨fun _ => 0⟩
    let J := fixedLibrary "a.txt" notesPayload
    (fileAlone.accepts J = true ∧ ¬ fileAlone.Promises J 0) ∧
      keepAlone.accepts J = true ∧ ¬ keepAlone.Promises J 0 := by
  let : FloatCast := ⟨fun _ => 0⟩
  refine ⟨⟨rfl, fun h => ?_⟩, rfl, fun h => ?_⟩
  · rcases (CreateMessage.promises_iff rfl).mp h with ⟨hnone, -⟩ | ⟨hset, -⟩
    · cases hnone
    · cases hset
  · rcases (EditMessage.promises_iff rfl).mp h with ⟨-, htext⟩ | ⟨hset, -⟩
    · cases htext
    · cases hset

end Ekizu.Requests

import Ekizu.Requests.FormParts

/-!
# Requests with files

Which requests with files a parser of the form reads back: those that can be built, whose
data has no line that begins like a delimiter, and whose names and content types stand for
themselves in a field.

## Main results

* `CreateMessage.exists_payload_iff` — which payloads can be built.
* `CreateMessage.parsesBack_iff` — which requests are read back.
* `parsesBack_predictedBoundary` — files that are not read back, and a request that is not
  built.
-/

namespace Ekizu.Requests

open Components Lib Lib.Json Rest
open Lib.Multipart (ascii)

variable [FloatCast]

namespace CreateMessage

/-- A parser that is given the `Content-Type` finds the payload and the files in the
request that `send` makes. -/
def ParsesBack (J : JsonLibrary) (m : CreateMessage) (ctr : UInt64) : Prop :=
  ∃ payload req contentType, m.payload J = some payload ∧ (m.send J ctr).1 = .sent req ∧
    req.fields.find "content-type" = some contentType ∧
    Multipart.parseForm contentType req.body =
      some (payloadPart (J.dump payload) :: fileParts 0 m.uploadAttachments)

end CreateMessage

namespace CreateMessage

/-- The payload is an object: `payload_json` spells one, or `null`, or else a field is set
and the fields can be encoded. -/
def HasPayload (J : JsonLibrary) (m : CreateMessage) : Prop :=
  match m.fields.payloadJson with
  | some text => ∀ j ∈ J.parse text, j.isNull = true ∨ j.isObject = true
  | none => m.fields.isSet = true ∧ m.fields.Encodable

/-- What has to hold of the payload and of every file. -/
structure Fits (J : JsonLibrary) (m : CreateMessage) (boundary : Text) : Prop where
  payload : m.HasPayload J
  files : ∀ f ∈ m.uploadAttachments, f.Fits boundary

variable {J : JsonLibrary} {m : CreateMessage} {ctr : UInt64}

omit [FloatCast] in
/-- The number of a boundary is part of a token. -/
theorem isToken_boundary (ctr : UInt64) :
    (makeMultipartBoundary ctr).1.all Multipart.isToken = true := by
  have hstart : (ascii "----ekizu-multipart-").all Multipart.isToken = true := by decide
  show (ascii "----ekizu-multipart-" ++ formatNumber (ctr + 1)).all Multipart.isToken = true
  rw [List.all_append, hstart, isToken_formatNumber]
  rfl

/-- Without `payload_json`, there is an object exactly if a field is set. -/
theorem exists_fieldsJson_iff (h : m.fields.payloadJson = none) :
    (∃ j, m.fieldsJson J = some j) ↔ m.fields.isSet = true ∧ m.fields.Encodable := by
  rw [← CreateMessageFields.mem_present_iff h]
  exact (m.fields.written J.text).exists_erased_iff

theorem isObject_fieldsJson {j : Json} (h : m.fieldsJson J = some j) : j.isObject = true :=
  isObject_bind_erase h

/-- **Which payloads can be built**, where `payload_json` spells something. -/
theorem exists_payload_iff (h : ∀ text ∈ m.fields.payloadJson, (J.parse text).isSome = true) :
    (∃ payload, m.payload J = some payload) ↔ m.HasPayload J := by
  unfold payload HasPayload
  cases htext : m.fields.payloadJson with
  | some text => exact exists_parsed_set_iff (h text htext)
  | none =>
      show (∃ payload, (m.fieldsJson J).bind (fun j => j.set _ _) = some payload) ↔ _
      rw [← exists_fieldsJson_iff (J := J) htext]
      exact exists_bind_set_iff fun j => isObject_fieldsJson

theorem isObject_payload {payload : Json} (h : m.payload J = some payload) :
    payload.isObject = true := by
  unfold CreateMessage.payload at h
  obtain ⟨j, -, hset⟩ := Option.bind_eq_some_iff.mp h
  exact isObject_set hset

/-- The request that a payload makes. -/
def formRequest (J : JsonLibrary) (m : CreateMessage) (ctr : UInt64) (payload : Json) :
    HttpRequest :=
  { method := .post
    target := m.target
    body := encodeMultipartFormData (makeMultipartBoundary ctr).1 (J.dump payload)
      m.uploadAttachments
    fields := [("content-type",
      ascii "multipart/form-data; boundary=" ++ (makeMultipartBoundary ctr).1)] }

theorem send_eq (h : m.accepts J = true) (hfiles : m.uploadAttachments ≠ []) {payload : Json}
    (hpayload : m.payload J = some payload) :
    (m.send J ctr).1 = .sent (m.formRequest J ctr payload) := by
  have hempty : m.uploadAttachments.isEmpty = false := by simpa using hfiles
  have hrequest : m.toHttpRequest J ctr =
      (some (m.formRequest J ctr payload), (makeMultipartBoundary ctr).2) := by
    unfold toHttpRequest
    rw [hempty, hpayload]
    rfl
  unfold send
  rw [if_pos h, hrequest]

variable (hprintable : ∀ j, ∀ b ∈ J.dump j, 32 ≤ b)
  (hobject : ∀ members, (J.dump (.object members)).head? = some 123)
  (haccepts : m.accepts J = true) (hfiles : m.uploadAttachments ≠ [])

include hprintable hobject haccepts in
/-- What is read of the form is what its files are exactly if they fit. -/
theorem parseForm_payload_iff {payload : Json} (hpayload : m.payload J = some payload) :
    Multipart.parseForm (ascii "multipart/form-data; boundary=" ++ (makeMultipartBoundary ctr).1)
        (m.formRequest J ctr payload).body =
          some (payloadPart (J.dump payload) :: fileParts 0 m.uploadAttachments) ↔
      ∀ f ∈ m.uploadAttachments, f.Fits (makeMultipartBoundary ctr).1 := by
  obtain ⟨-, hnames, -⟩ := checks_of_acceptsUploads haccepts
  have hreturn : 13 ∉ J.dump payload := by
    intro hmem
    exact absurd (hprintable payload 13 hmem) (by decide)
  have hbrace : (J.dump payload).head? = some 123 := by
    have hshape := isObject_payload hpayload
    cases payload with
    | object members => exact hobject members
    | null | boolean | unsigned | integer | float | string | array => simp [isObject] at hshape
  exact parseForm_iff (isToken_boundary ctr) hreturn hbrace hnames

include hprintable hobject haccepts hfiles in
theorem fits_of_parsesBack (h : m.ParsesBack J ctr) : m.Fits J (makeMultipartBoundary ctr).1 := by
  obtain ⟨payload, req, contentType, hpayload, hsent, htype, hparsed⟩ := h
  rw [send_eq haccepts hfiles hpayload] at hsent
  obtain rfl := SendOutcome.sent.inj hsent
  obtain rfl := Option.some.inj htype
  obtain ⟨-, -, hparses⟩ := checks_of_acceptsUploads haccepts
  exact ⟨(exists_payload_iff (hparses hfiles)).mp ⟨payload, hpayload⟩,
    (parseForm_payload_iff hprintable hobject haccepts hpayload).mp hparsed⟩

include hprintable hobject haccepts hfiles in
theorem Fits.parsesBack (h : m.Fits J (makeMultipartBoundary ctr).1) : m.ParsesBack J ctr := by
  obtain ⟨-, -, hparses⟩ := checks_of_acceptsUploads haccepts
  obtain ⟨payload, hpayload⟩ := (exists_payload_iff (hparses hfiles)).mpr h.payload
  exact ⟨payload, _, _, hpayload, send_eq haccepts hfiles hpayload, rfl,
    (parseForm_payload_iff hprintable hobject haccepts hpayload).mpr h.files⟩

include hprintable hobject haccepts hfiles in
/-- **A request with files is read back** exactly if its payload can be built and its files
fit. -/
theorem parsesBack_iff : m.ParsesBack J ctr ↔ m.Fits J (makeMultipartBoundary ctr).1 := by
  constructor
  · exact fits_of_parsesBack hprintable hobject haccepts hfiles
  · exact Fits.parsesBack hprintable hobject haccepts hfiles

end CreateMessage

omit [FloatCast]

/-! ## Requests -/

/-- A library that has one string to write and one text to dump. -/
def fixedLibrary (text : String) (dump : Text) : JsonLibrary where
  parse _ := none
  dump _ := dump
  text _ := text

private theorem isPrintable_iff {dump : Text} :
    dump.all (fun b => decide (32 ≤ b)) = true ↔ ∀ b ∈ dump, 32 ≤ b := by
  simp only [List.all_eq_true, decide_eq_true_eq]

/-- A text and a file of two lines. -/
def notes : CreateMessage :=
  { channelId := ⟨7⟩
    fields := { content := some "hi" }
    uploadAttachments :=
      [{ filename := ascii "a.txt", data := ascii "--\r\n-"
         contentType := some (ascii "text/plain") }] }

/-- The payload of that message. -/
def notesPayload : Text :=
  ascii "\x7b\"attachments\":[\x7b\"filename\":\"a.txt\",\"id\":\"0\"\x7d],\"content\":\"hi\"\x7d"

theorem printable_notesPayload : ∀ b ∈ notesPayload, 32 ≤ b := isPrintable_iff.mp (by decide)

theorem parsesBack_notes :
    letI : FloatCast := ⟨fun _ => 0⟩
    notes.ParsesBack (fixedLibrary "a.txt" notesPayload) 0 := by
  let : FloatCast := ⟨fun _ => 0⟩
  refine (CreateMessage.parsesBack_iff ?_ ?_ ?_ ?_).mpr ⟨⟨rfl, rfl⟩, ?_⟩
  · intro j
    exact printable_notesPayload
  · intro members
    rfl
  · rfl
  · exact List.cons_ne_nil _ _
  · intro f hf
    obtain rfl := List.mem_singleton.mp hf
    exact ⟨by decide, by decide, by decide, by decide, by decide⟩

/-- A file whose second line is the first boundary of the process. -/
def predictedBoundary : CreateMessage :=
  { notes with
    uploadAttachments :=
      [{ filename := ascii "a.txt", data := ascii "\r\n------ekizu-multipart-1" }] }

/-- A file with a quote in its name. -/
def quotedName : CreateMessage :=
  { notes with uploadAttachments := [{ filename := ascii "a\".txt", data := [] }] }

/-- A file and nothing else. -/
def fileAlone : CreateMessage := { notes with fields := {} }

/-- The payload of a message with a quote in the name of its file. -/
def quotedPayload : Text :=
  ascii "\x7b\"attachments\":[\x7b\"filename\":\"a\\\".txt\",\"id\":\"0\"\x7d]" ++
    ascii ",\"content\":\"hi\"\x7d"

/-- The delimiter within the data and the quote in the name end a part and a value early, and
without a field there is no object to make the payload of. -/
theorem parsesBack_predictedBoundary :
    letI : FloatCast := ⟨fun _ => 0⟩
    let J := fixedLibrary "a.txt" notesPayload
    let K := fixedLibrary "a\".txt" quotedPayload
    (predictedBoundary.accepts J = true ∧ ¬ predictedBoundary.ParsesBack J 0) ∧
      (quotedName.accepts K = true ∧ ¬ quotedName.ParsesBack K 0) ∧
      fileAlone.accepts J = true ∧ ¬ fileAlone.ParsesBack J 0 := by
  let : FloatCast := ⟨fun _ => 0⟩
  have hquoted : ∀ b ∈ quotedPayload, 32 ≤ b := isPrintable_iff.mp (by decide)
  refine ⟨⟨rfl, fun h => ?_⟩, ⟨rfl, fun h => ?_⟩, rfl, fun h => ?_⟩
  · obtain ⟨-, hfiles⟩ := CreateMessage.fits_of_parsesBack (fun _ => printable_notesPayload)
      (fun _ => rfl) rfl (List.cons_ne_nil _ _) h
    exact (hfiles _ List.mem_cons_self).data (ascii "------ekizu-multipart-1") (by decide)
      (by decide)
  · obtain ⟨-, hfiles⟩ := CreateMessage.fits_of_parsesBack (fun _ => hquoted) (fun _ => rfl) rfl
      (List.cons_ne_nil _ _) h
    exact (hfiles _ List.mem_cons_self).quote (by decide)
  · obtain ⟨⟨hset, -⟩, -⟩ := CreateMessage.fits_of_parsesBack (fun _ => printable_notesPayload)
      (fun _ => rfl) rfl (List.cons_ne_nil _ _) h
    cases hset

end Ekizu.Requests

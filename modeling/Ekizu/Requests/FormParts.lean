import Ekizu.Requests.CreateMessage

/-!
# The parts of a form

The form that `encode_multipart_form_data` writes, line by line, and what a parser makes
of it.

## Main results

* `lines_encodeFile`, `lines_form` — the lines of the form.
* `parsePart_file`, `parsePart_payload` — what is read of a file and of the payload.
* `UploadAttachment.Fits.read`, `UploadAttachment.fits_of_read` — which files are read back.
* `parts_files`, `parseForm_iff` — which forms are.
-/

namespace Ekizu.Requests

open Lib Lib.Multipart

/-! ## What is written -/

section

variable {n : UInt64} {i : Nat} {f : UploadAttachment}

theorem isToken_formatNumber : (formatNumber n).all isToken = true := by
  rw [List.all_eq_true]
  intro b hb
  have hdigit : Decimal.isDigit b = true := (Decimal.toDecimal_digits n).2.1 b hb
  rw [← Decimal.digitByte_sub hdigit]
  have hlt : b.toNat - 48 < 10 := by
    simp only [Decimal.isDigit, Bool.and_eq_true, decide_eq_true_eq,
      UInt8.le_iff_toNat_le] at hdigit
    have hhigh : b.toNat ≤ 57 := hdigit.2
    omega
  have htokens : ∀ d < 10, isToken (Decimal.digitByte d) = true := by decide
  exact htokens _ hlt

theorem not_mem_formatNumber {b : UInt8} (h : isToken b = false) : b ∉ formatNumber n := by
  intro hb
  rw [List.all_eq_true.mp isToken_formatNumber b hb] at h
  cases h

end

/-- The body of the field that names a file. -/
def dispositionText (i : Nat) (filename : Text) : Text :=
  ascii "form-data; name=\"files[" ++ formatNumber (UInt64.ofNat i) ++ ascii "]\"; filename=\"" ++
    filename ++ [34]

def dispositionField (i : Nat) (filename : Text) : Text × Text :=
  (ascii "Content-Disposition", 32 :: dispositionText i filename)

def typeField (contentType : Text) : Text × Text := (ascii "Content-Type", 32 :: contentType)

/-- The lines of a file after its delimiter. -/
def fileLines (i : Nat) (f : UploadAttachment) : List Text :=
  fieldLine (dispositionField i f.filename) ::
    (lines (fieldLine (typeField f.contentTypeText)) ++ [] :: lines f.data)

section

variable {boundary : Text} {i : Nat} {f : UploadAttachment}

theorem oneLine_dispositionField {filename : Text} (h : 13 ∉ filename) :
    OneLine (fieldLine (dispositionField i filename)) := by
  have hnumber : 13 ∉ formatNumber (UInt64.ofNat i) := not_mem_formatNumber (by decide)
  have hvalue : 13 ∉ dispositionText i filename := by
    unfold dispositionText
    simp only [List.mem_append, not_or]
    exact ⟨⟨⟨⟨by decide, hnumber⟩, by decide⟩, h⟩, by decide⟩
  refine oneLine_of_not_mem ?_
  show 13 ∉ (ascii "Content-Disposition" ++ [58, 32]) ++ dispositionText i filename
  exact List.not_mem_append (by decide) hvalue

/-- **The lines of a file** among those of the form. -/
theorem lines_encodeFile (hboundary : OneLine (dashBoundary boundary)) (h : 13 ∉ f.filename)
    (rest : Text) :
    lines (encodeFile boundary i f ++ rest) =
      dashBoundary boundary :: (fileLines i f ++ lines rest) := by
  have htext : encodeFile boundary i f ++ rest =
      dashBoundary boundary ++ crlf ++ (fieldLine (dispositionField i f.filename) ++ crlf ++
        (fieldLine (typeField f.contentTypeText) ++ crlf ++
          ([] ++ crlf ++ (f.data ++ crlf ++ rest)))) := by
    have hdash : ascii "--" = [45, 45] := rfl
    have hdisposition : ascii "Content-Disposition: form-data; name=\"files[" =
      ascii "Content-Disposition" ++ 58 :: 32 :: ascii "form-data; name=\"files[" := rfl
    have hfilename : ascii "]\"; filename=\"" = ascii "]\"; " ++ ascii "filename=\"" := rfl
    have htype : ascii "Content-Type: " = ascii "Content-Type" ++ [58, 32] := rfl
    have hquote : ascii "\"\r\n" = 34 :: crlf := rfl
    have hcrlf : ascii "\r\n" = crlf := rfl
    simp only [encodeFile, hdash, hdisposition, hfilename, htype, hquote, hcrlf, fieldLine,
      dispositionField, dispositionText, typeField, dashBoundary, List.append_assoc,
      List.cons_append, List.nil_append]
  rw [htext, hboundary.lines_append, (oneLine_dispositionField h).lines_append, lines_append,
    oneLine_nil.lines_append, lines_append]
  simp only [fileLines, List.cons_append, List.append_assoc]

end

/-! ## What is read -/

theorem isName_disposition : IsName (ascii "Content-Disposition") := by decide

theorem isName_type : IsName (ascii "Content-Type") := by decide

/-- The parameters of the field that names a file: the value of `filename` is what the
quoted string says. -/
theorem parametersOf_disposition (i : Nat) (filename : Text) :
    ∃ fuel, parametersOf (dispositionText i filename) =
      (quoted (filename ++ [34])).bind fun value =>
        (parameters (fuel + 1) value.2).map fun params =>
          (ascii "name", ascii "files[" ++ formatNumber (UInt64.ofNat i) ++ ascii "]") ::
            (ascii "filename", value.1) :: params := by
  let name := ascii "files[" ++ formatNumber (UInt64.ofNat i) ++ ascii "]"
  have htext : dispositionText i filename = ascii "form-data" ++ 59 :: 32 :: (ascii "name" ++
      61 :: 34 :: (name ++ 34 :: 59 :: 32 :: (ascii "filename" ++ 61 :: 34 ::
        (filename ++ [34])))) := by
    simp only [dispositionText, name, List.append_assoc]
    rfl
  have hquote : 34 ∉ name :=
    List.not_mem_append (List.not_mem_append (by decide) (not_mem_formatNumber (by decide)))
      (by decide)
  have hescape : 92 ∉ name :=
    List.not_mem_append (List.not_mem_append (by decide) (not_mem_formatNumber (by decide)))
      (by decide)
  obtain ⟨fuel, hfuel⟩ : ∃ fuel, (dispositionText i filename).length + 1 = fuel + 1 + 1 + 1 := by
    have hlength : 9 ≤ (dispositionText i filename).length := by
      rw [htext, List.length_append]
      exact Nat.le_add_right 9 _
    exact ⟨(dispositionText i filename).length - 2, by omega⟩
  have hvalue : (ascii "form-data").all (fun b => decide (b ≠ 59)) = true := by decide
  refine ⟨fuel, ?_⟩
  rw [parametersOf, hfuel, htext, List.dropWhile_append_of_pos (List.all_eq_true.mp hvalue),
    List.dropWhile_cons_of_neg (by decide), parameters_quoted (by decide),
    quoted_append hquote hescape, Option.bind_some, parameters_quoted (by decide)]
  cases quoted (filename ++ [34]) with
  | none => rfl
  | some value => exact Option.map_map _ _ _

/-- **What is read of a file**, from its fields and any lines of data. -/
theorem parsePart_file (i : Nat) (filename contentType : Text) (data : List Text) :
    ∃ fuel, parsePart ([dispositionField i filename, typeField contentType].map fieldLine ++
        [] :: data) =
      (quoted (filename ++ [34])).bind fun value =>
        (parameters (fuel + 1) value.2).map fun _ =>
          { name := ascii "files[" ++ formatNumber (UInt64.ofNat i) ++ ascii "]"
            filename := some value.1
            contentType := some (trim contentType)
            data := unlines data } := by
  obtain ⟨fuel, hparams⟩ := parametersOf_disposition i filename
  have hnames : ∀ entry ∈ [dispositionField i filename, typeField contentType],
      IsName entry.1 := by
    simp only [List.forall_mem_cons]
    exact ⟨isName_disposition, isName_type, nofun⟩
  have hblank : isBlank 102 = false ∧ isBlank 34 = false := by decide
  have htrim : trim (32 :: dispositionText i filename) = dispositionText i filename :=
    trim_eq hblank.1 hblank.2
  refine ⟨fuel, ?_⟩
  rw [parsePart_fields hnames]
  show partOf [(ascii "Content-Disposition", trim (32 :: dispositionText i filename)),
    (ascii "Content-Type", trim contentType)] data = _
  have hfound : find? "content-disposition" [(ascii "Content-Disposition",
      trim (32 :: dispositionText i filename)), (ascii "Content-Type", trim contentType)] =
      some (dispositionText i filename) := by
    rw [htrim]
    rfl
  have htype : find? "content-type" [(ascii "Content-Disposition",
      trim (32 :: dispositionText i filename)), (ascii "Content-Type", trim contentType)] =
      some (trim contentType) := rfl
  rw [partOf, hfound, htype]
  simp only [Option.bind_eq_bind, Option.bind_some, hparams]
  cases quoted (filename ++ [34]) with
  | none => rfl
  | some value =>
      simp only [Option.bind_some]
      cases parameters (fuel + 1) value.2 with
      | none => rfl
      | some params => rfl

/-! ## Files that are read back -/

/-- The part that a file is. -/
def filePart (i : Nat) (f : UploadAttachment) : FormPart :=
  { name := ascii "files[" ++ formatNumber (UInt64.ofNat i) ++ ascii "]"
    filename := some f.filename
    contentType := some f.contentTypeText
    data := f.data }

/-- No line of the data begins like a delimiter, the name of the file needs no escapes, and
the content type is a line without blanks around it. -/
structure UploadAttachment.Fits (boundary : Text) (f : UploadAttachment) : Prop where
  data : ∀ line ∈ lines f.data, ¬ dashBoundary boundary <+: line
  quote : 34 ∉ f.filename
  escape : 92 ∉ f.filename
  oneLine : OneLine f.contentTypeText
  trimmed : trim f.contentTypeText = f.contentTypeText

section

variable {boundary : Text} {i : Nat} {f : UploadAttachment}

theorem fileLines_eq (h : OneLine f.contentTypeText) :
    fileLines i f = [dispositionField i f.filename, typeField f.contentTypeText].map fieldLine ++
      [] :: lines f.data := by
  have hname : OneLine (ascii "Content-Type") := oneLine_of_not_mem (by decide)
  have hbody : OneLine (58 :: 32 :: f.contentTypeText) := (h.cons (by decide)).cons (by decide)
  have htype : OneLine (fieldLine (typeField f.contentTypeText)) := hname.append hbody (by simp)
  rw [fileLines, htype.lines_eq]
  rfl

theorem oneLine_fileLines (h : 13 ∉ f.filename) : ∀ l ∈ fileLines i f, OneLine l := by
  unfold fileLines
  simp only [List.forall_mem_cons, List.forall_mem_append]
  exact ⟨oneLine_dispositionField h, fun l => oneLine_of_mem_lines, oneLine_nil,
    fun l => oneLine_of_mem_lines⟩

/-- The fields of a file are no delimiters. -/
theorem isDelimiter_fields (filename contentType : Text) :
    ∀ l ∈ [dispositionField i filename, typeField contentType].map fieldLine ++ [[]],
      isDelimiter boundary l = false := by
  have hdisposition : (ascii "Content-Disposition").head?.any (fun b => b != 45) = true := by decide
  have htype : (ascii "Content-Type").head?.any (fun b => b != 45) = true := by decide
  simp only [List.map_cons, List.map_nil, List.cons_append, List.nil_append, List.forall_mem_cons]
  exact ⟨isDelimiter_fieldLine hdisposition, isDelimiter_fieldLine htype, isDelimiter_nil, nofun⟩

/-- A file that fits is read back. -/
theorem UploadAttachment.Fits.read (h : f.Fits boundary) :
    (∀ l ∈ fileLines i f, isDelimiter boundary l = false) ∧
      parsePart (fileLines i f) = some (filePart i f) := by
  rw [fileLines_eq h.oneLine]
  constructor
  · rw [List.append_cons]
    refine List.forall_mem_append.mpr ⟨isDelimiter_fields _ _, ?_⟩
    intro line hline
    rw [Bool.eq_false_iff]
    intro hdelimiter
    exact h.data line hline (isDelimiter_iff.mp hdelimiter)
  · obtain ⟨fuel, hread⟩ := parsePart_file i f.filename f.contentTypeText (lines f.data)
    have hquoted := quoted_append h.quote h.escape []
    rw [hread, hquoted, unlines_lines, h.trimmed]
    rfl

/-- What is read of the lines before the first delimiter is the file only if it fits. -/
theorem UploadAttachment.fits_of_read (hname : 13 ∉ f.filename)
    (h : parsePart ((fileLines i f).takeWhile fun l => !isDelimiter boundary l) =
      some (filePart i f)) : f.Fits boundary := by
  have hlines : ∀ l ∈ (fileLines i f).takeWhile (fun l => !isDelimiter boundary l), OneLine l :=
    fun l hl => oneLine_fileLines hname l ((List.takeWhile_prefix _).subset hl)
  obtain ⟨honeLine, htrimmed⟩ := contentType_clean h hlines f.contentTypeText rfl
  have hfields : ∀ l ∈ [dispositionField i f.filename,
      typeField f.contentTypeText].map fieldLine ++ [[]],
      (!isDelimiter boundary l) = true := by
    intro l hl
    rw [isDelimiter_fields _ _ l hl]
    rfl
  obtain ⟨fuel, hread⟩ := parsePart_file i f.filename f.contentTypeText
    ((lines f.data).takeWhile fun l => !isDelimiter boundary l)
  rw [fileLines_eq honeLine, List.append_cons, List.takeWhile_append_of_pos hfields,
    ← List.append_cons, hread] at h
  obtain ⟨value, hquoted, h⟩ := Option.bind_eq_some_iff.mp h
  obtain ⟨params, -, hpart⟩ := Option.map_eq_some_iff.mp h
  have hfilename : value.1 = f.filename := Option.some.inj (congrArg FormPart.filename hpart)
  have hdata : unlines ((lines f.data).takeWhile fun l => !isDelimiter boundary l) = f.data :=
    congrArg FormPart.data hpart
  obtain ⟨hquote, hescape⟩ := quoted_iff.mp ⟨value.2, by rw [hquoted, ← hfilename]⟩
  refine ⟨?_, hquote, hescape, honeLine, htrimmed⟩
  intro line hline hstart
  have hnot : (!isDelimiter boundary line) = true :=
    forall_of_unlines_takeWhile rfl hdata line hline
  rw [isDelimiter_iff.mpr hstart] at hnot
  cases hnot

end

/-! ## The form -/

/-- The files from a number on, and the last delimiter. -/
def remainingText (boundary : Text) (i : Nat) (files : List UploadAttachment) : Text :=
  (files.zipIdx i).flatMap (fun (f, i) => encodeFile boundary i f) ++
    (dashBoundary boundary ++ [45, 45] ++ crlf)

/-- The parts that files are, from a number on. -/
def fileParts (i : Nat) (files : List UploadAttachment) : List FormPart :=
  (files.zipIdx i).map fun (f, i) => filePart i f

private theorem takeWhile_append_nil {A : Type} {p : A → Bool} {xs ys : List A}
    (h : ys.takeWhile p = []) : (xs ++ ys).takeWhile p = xs.takeWhile p := by
  rw [List.takeWhile_append, h, List.append_nil]
  split
  · next hlength => exact ((List.takeWhile_prefix p).eq_of_length hlength).symm
  · rfl

private theorem mapM_cons_iff {A B : Type} {read : A → Option B} {a : A} {b : B} {bs : List B}
    (h : read a = some b) (as : Option (List A)) :
    (as.map fun as => a :: as).bind (fun as => as.mapM read) = some (b :: bs) ↔
      as.bind (fun as => as.mapM read) = some bs := by
  cases as with
  | none => simp
  | some as =>
      show (a :: as).mapM read = some (b :: bs) ↔ as.mapM read = some bs
      rw [List.mapM_cons, h]
      cases as.mapM read with
      | none => simp
      | some bs' => simp

section

variable {boundary : Text} {files : List UploadAttachment}

theorem lines_close (h : OneLine (dashBoundary boundary)) (i : Nat) :
    lines (remainingText boundary i []) = [dashBoundary boundary ++ [45, 45], []] := by
  have hclose : OneLine (dashBoundary boundary ++ [45, 45]) :=
    h.append (oneLine_of_not_mem (by decide)) (by decide)
  have htext : remainingText boundary i [] = dashBoundary boundary ++ [45, 45] ++ crlf ++ [] :=
    (List.append_nil _).symm
  rw [htext, hclose.lines_append]
  rfl

theorem lines_remainingText (h : OneLine (dashBoundary boundary)) {f : UploadAttachment}
    (hname : 13 ∉ f.filename) (i : Nat) :
    lines (remainingText boundary i (f :: files)) =
      dashBoundary boundary :: (fileLines i f ++ lines (remainingText boundary (i + 1) files)) := by
  rw [← lines_encodeFile h hname]
  simp only [remainingText, List.zipIdx_cons, List.flatMap_cons, List.append_assoc]

/-- What is left of a form begins with a delimiter. -/
theorem takeWhile_remainingText (h : OneLine (dashBoundary boundary))
    (hnames : ∀ f ∈ files, 13 ∉ f.filename) (i : Nat) :
    (lines (remainingText boundary i files)).takeWhile (fun l => !isDelimiter boundary l) = [] := by
  cases files with
  | nil =>
      rw [lines_close h]
      exact List.takeWhile_cons_of_neg (by simp [isDelimiter_of_isClose isClose_close])
  | cons f files =>
      rw [lines_remainingText h (hnames f List.mem_cons_self)]
      exact List.takeWhile_cons_of_neg (by simp [isDelimiter_dashBoundary])

/-- **The files of a form** are read back after the part before them exactly if each of
them fits. -/
theorem parts_files (h : OneLine (dashBoundary boundary))
    (hnames : ∀ f ∈ files, 13 ∉ f.filename) {group : List Text} {part : FormPart}
    (hgroup : ∀ l ∈ group, isDelimiter boundary l = false) (hread : parsePart group = some part)
    (i : Nat) :
    (parts boundary (group ++ lines (remainingText boundary i files))).bind
        (fun groups => groups.mapM parsePart) = some (part :: fileParts i files) ↔
      ∀ f ∈ files, f.Fits boundary := by
  induction files generalizing i group part with
  | nil =>
      rw [lines_close h, parts_append hgroup (isDelimiter_of_isClose isClose_close),
        if_pos isClose_close]
      refine iff_of_true ?_ nofun
      show [group].mapM parsePart = some [part]
      rw [List.mapM_cons, hread]
      rfl
  | cons f files ih =>
      obtain ⟨hname, hnames⟩ := List.forall_mem_cons.mp hnames
      rw [lines_remainingText h hname, parts_append hgroup isDelimiter_dashBoundary,
        isClose_dashBoundary, List.forall_mem_cons]
      refine (mapM_cons_iff hread _).trans ?_
      constructor
      · intro hparts
        obtain ⟨groups, hgroups, hparsed⟩ := Option.bind_eq_some_iff.mp hparts
        have hfits : f.Fits boundary := by
          cases groups with
          | nil => cases hparsed
          | cons first groups =>
              rw [List.mapM_cons] at hparsed
              obtain ⟨read, hfirst, hothers⟩ := Option.bind_eq_some_iff.mp hparsed
              obtain ⟨others, -, heq⟩ := Option.bind_eq_some_iff.mp hothers
              obtain ⟨rfl, -⟩ := List.cons.inj (Option.some.inj heq)
              -- the lines before the first delimiter are lines of the file
              have hlines := parts_head hgroups
              rw [takeWhile_append_nil (takeWhile_remainingText h hnames (i + 1))] at hlines
              rw [hlines] at hfirst
              exact f.fits_of_read hname hfirst
        obtain ⟨hgroup', hread'⟩ := hfits.read (i := i)
        exact ⟨hfits, (ih hnames hgroup' hread' (i + 1)).mp hparts⟩
      · rintro ⟨hfits, hothers⟩
        obtain ⟨hgroup', hread'⟩ := hfits.read (i := i)
        exact (ih hnames hgroup' hread' (i + 1)).mpr hothers

end

/-- The part that the payload is. -/
def payloadPart (payload : Text) : FormPart :=
  { name := ascii "payload_json"
    filename := none
    contentType := some (ascii "application/json")
    data := payload }

def payloadFields : List (Text × Text) :=
  [(ascii "Content-Disposition", ascii " form-data; name=\"payload_json\""),
   (ascii "Content-Type", ascii " application/json")]

/-- The lines of the payload after its delimiter. -/
def payloadLines (payload : Text) : List Text := payloadFields.map fieldLine ++ [] :: [payload]

section

variable {boundary payload : Text} {files : List UploadAttachment}

theorem parsePart_payload (payload : Text) :
    parsePart (payloadLines payload) = some (payloadPart payload) := by
  have hnames : ∀ entry ∈ payloadFields, IsName entry.1 := by
    simp only [payloadFields, List.forall_mem_cons]
    exact ⟨isName_disposition, isName_type, nofun⟩
  rw [payloadLines, parsePart_fields hnames]
  rfl

theorem isDelimiter_payload {b : UInt8} {rest : Text} (hb : b ≠ 45) :
    ∀ l ∈ payloadLines (b :: rest), isDelimiter boundary l = false := by
  have hdisposition : (ascii "Content-Disposition").head?.any (fun b => b != 45) = true := by decide
  have htype : (ascii "Content-Type").head?.any (fun b => b != 45) = true := by decide
  simp only [payloadLines, payloadFields, List.map_cons, List.map_nil, List.cons_append,
    List.nil_append, List.forall_mem_cons]
  exact ⟨isDelimiter_fieldLine hdisposition, isDelimiter_fieldLine htype, isDelimiter_nil,
    isDelimiter_cons hb, nofun⟩

/-- **The lines of the form.** -/
theorem lines_form (hboundary : OneLine (dashBoundary boundary)) (hpayload : OneLine payload) :
    lines (encodeMultipartFormData boundary payload files) =
      dashBoundary boundary ::
        (payloadLines payload ++ lines (remainingText boundary 0 files)) := by
  have hdisposition : OneLine (fieldLine (ascii "Content-Disposition",
      ascii " form-data; name=\"payload_json\"")) := oneLine_of_not_mem (by decide)
  have htype : OneLine (fieldLine (ascii "Content-Type", ascii " application/json")) :=
    oneLine_of_not_mem (by decide)
  have htext : encodeMultipartFormData boundary payload files =
      dashBoundary boundary ++ crlf ++ (fieldLine (ascii "Content-Disposition",
        ascii " form-data; name=\"payload_json\"") ++ crlf ++ (fieldLine (ascii "Content-Type",
          ascii " application/json") ++ crlf ++ ([] ++ crlf ++ (payload ++ crlf ++
            remainingText boundary 0 files)))) := by
    have hdash : ascii "--" = [45, 45] := rfl
    have hcrlf : ascii "\r\n" = crlf := rfl
    have hpayloadLine : ascii "Content-Disposition: form-data; name=\"payload_json\"\r\n" =
      ascii "Content-Disposition" ++ 58 :: ascii " form-data; name=\"payload_json\"" ++ crlf := rfl
    have htypeLine : ascii "Content-Type: application/json\r\n" =
      ascii "Content-Type" ++ 58 :: ascii " application/json" ++ crlf := rfl
    have hclose : ascii "--\r\n" = 45 :: 45 :: crlf := rfl
    simp only [encodeMultipartFormData, remainingText, hdash, hcrlf, hpayloadLine, htypeLine,
      hclose, fieldLine, dashBoundary, List.append_assoc, List.cons_append, List.nil_append]
  rw [htext, hboundary.lines_append, hdisposition.lines_append, htype.lines_append,
    oneLine_nil.lines_append, hpayload.lines_append]
  rfl

theorem boundaryOf_form (h : boundary.all isToken = true) :
    boundaryOf (ascii "multipart/form-data; boundary=" ++ boundary) = some boundary := by
  have hstart : ascii "multipart/form-data; boundary=" =
      ascii "multipart/form-data" ++ 59 :: 32 :: (ascii "boundary" ++ [61]) := by decide
  have htext : ascii "multipart/form-data; boundary=" ++ boundary =
      ascii "multipart/form-data" ++ 59 :: 32 :: (ascii "boundary" ++ 61 :: boundary) := by
    rw [hstart]
    simp only [List.append_assoc, List.cons_append, List.nil_append]
  have hvalue : (ascii "multipart/form-data").all (fun b => decide (b ≠ 59)) = true := by decide
  obtain ⟨fuel, hfuel⟩ :
      ∃ fuel, (ascii "multipart/form-data; boundary=" ++ boundary).length + 1 = fuel + 2 := by
    have hlength : (ascii "multipart/form-data; boundary=").length = 30 := rfl
    refine ⟨29 + boundary.length, ?_⟩
    rw [List.length_append, hlength]
    omega
  have hparams : parametersOf (ascii "multipart/form-data; boundary=" ++ boundary) =
      some [(ascii "boundary", boundary)] := by
    rw [parametersOf, hfuel, htext, List.dropWhile_append_of_pos (List.all_eq_true.mp hvalue),
      List.dropWhile_cons_of_neg (by decide), parameters_token (by decide) h]
  have hname : (ascii "boundary").map lower = ascii "boundary" := by decide
  rw [boundaryOf, hparams]
  show find? "boundary" [(ascii "boundary", boundary)] = some boundary
  exact find?_cons hname

/-- **A form is read back** exactly if its files fit. -/
theorem parseForm_iff (hboundary : boundary.all isToken = true) (hpayload : 13 ∉ payload)
    (hobject : payload.head? = some 123) (hnames : ∀ f ∈ files, 13 ∉ f.filename) :
    parseForm (ascii "multipart/form-data; boundary=" ++ boundary)
        (encodeMultipartFormData boundary payload files) =
          some (payloadPart payload :: fileParts 0 files) ↔
      ∀ f ∈ files, f.Fits boundary := by
  have hreturn : 13 ∉ boundary := by
    intro hmem
    exact absurd (List.all_eq_true.mp hboundary 13 hmem) (by decide)
  have honeLine : OneLine (dashBoundary boundary) :=
    ((oneLine_of_not_mem hreturn).cons (by decide)).cons (by decide)
  obtain ⟨rest, rfl⟩ := List.head?_eq_some_iff.mp hobject
  have hbrace : (123 : UInt8) ≠ 45 := by decide
  rw [parseForm_eq (boundaryOf_form hboundary), ← parts_files honeLine hnames
    (isDelimiter_payload hbrace) (parsePart_payload _) 0,
    ← bodyParts_cons (lines_form honeLine (oneLine_of_not_mem hpayload))]

end

end Ekizu.Requests

/-
Royd.Services.Files — `services/file_service.py`: the checks an upload has
to pass and the row it becomes.

The random prefix `_store` draws for the stored name travels with the
upload. Where the bytes go on disk is not part of this module; what a row
keeps of an upload is.
-/
import Royd.Core.Python

namespace Royd

/-- Files one answer may carry. -/
def maxAnswerFiles : Nat := 10

/-- An `UploadFile`, with the `secrets.token_hex(8)` its storing draws. -/
structure Upload where
  filename : Option String
  contentType : Option String
  content : List UInt8
  token : String
  deriving DecidableEq, Repr

/-- What `_store` returns for the row. -/
structure FileMeta where
  filePath : String
  fileName : String
  fileSize : Nat
  mimeType : String
  deriving DecidableEq, Repr

/-- `_ALLOWED_MIME`. -/
def allowedMime : List String :=
  ["application/pdf", "image/jpeg", "image/png", "image/webp", "application/msword",
    "application/vnd.openxmlformats-officedocument.wordprocessingml.document"]

/-- `_MAGIC_BYTES`. -/
def magicBytes (mime : String) : List (List UInt8) :=
  if mime = "application/pdf" then [[0x25, 0x50, 0x44, 0x46, 0x2D]]
  else if mime = "image/jpeg" then [[0xFF, 0xD8, 0xFF]]
  else if mime = "image/png" then [[0x89, 0x50, 0x4E, 0x47, 0x0D, 0x0A, 0x1A, 0x0A]]
  else if mime = "image/webp" then [[0x52, 0x49, 0x46, 0x46]]
  else if mime = "application/vnd.openxmlformats-officedocument.wordprocessingml.document" then
    [[0x50, 0x4B, 0x03, 0x04]]
  else if mime = "application/msword" then
    [[0xD0, 0xCF, 0x11, 0xE0, 0xA1, 0xB1, 0x1A, 0xE1], [0x50, 0x4B, 0x03, 0x04]]
  else []

/-- A character `_SAFE_NAME` leaves alone. -/
def safeChar (c : Char) : Bool :=
  ('A' ≤ c && c ≤ 'Z') || ('a' ≤ c && c ≤ 'z') || ('0' ≤ c && c ≤ '9')
    || c == '.' || c == '_' || c == '-'

/-- `_SAFE_NAME.sub("_", base)`: every run of other characters becomes one
underscore. `inRun` says that the run's underscore was already written. -/
def subUnsafe (inRun : Bool) : List Char → List Char
  | [] => []
  | c :: cs =>
    if safeChar c then c :: subUnsafe false cs
    else if inRun then subUnsafe true cs
    else '_' :: subUnsafe true cs

/-- `_safe_filename`. -/
def safeFilename (name : String) : String :=
  let base := (name.toList.reverse.takeWhile (· != '/')).reverse
  let safe := (subUnsafe false base).take 200
  if safe.isEmpty then "file" else String.ofList safe

/-- `_sniff_mime`: the bytes must match the declared type. -/
def sniffMime (content : List UInt8) (declared : String) : Except Exc String :=
  if ¬ (magicBytes declared).any (fun sig => sig.isPrefixOf content) then
    .error (.http 415 "Fayl mazmuni e'lon qilingan turga mos kelmadi")
  -- WebP carries its real marker at offset 8, after the RIFF chunk size.
  else if declared = "image/webp" ∧ (content.drop 8).take 4 ≠ [0x57, 0x45, 0x42, 0x50] then
    .error (.http 415 "Yaroqsiz WebP fayl")
  else .ok declared

/-- `(upload.content_type or "application/octet-stream").split(";")[0].strip()`. -/
def declaredType (upload : Upload) : String :=
  let sent := match upload.contentType with
    | some t => if t.isEmpty then "application/octet-stream" else t
    | none => "application/octet-stream"
  strip (String.ofList (sent.toList.takeWhile (· != ';')))

/-- `_store`: check an upload and name the file it becomes under `folder`. -/
def store (maxUploadMb : Nat) (upload : Upload) (folder : String) : Except Exc FileMeta :=
  let maxBytes := maxUploadMb * 1024 * 1024
  let content := upload.content.take (maxBytes + 1)
  if content.length > maxBytes then
    .error (.http 413 s!"Maksimal hajm {maxUploadMb} MB")
  else if content.length = 0 then .error (.http 400 "Bo'sh fayl")
  else
    let declared := declaredType upload
    if ¬ allowedMime.contains declared then
      .error (.http 415 ("Qo'llab-quvvatlanmaydigan tur: " ++ declared))
    else
      match sniffMime content declared with
      | .error e => .error e
      | .ok mime =>
        let sent := match upload.filename with
          | some name => if name.isEmpty then "file" else name
          | none => "file"
        let safeName := safeFilename sent
        .ok
          { filePath := folder ++ "/" ++ upload.token ++ "_" ++ safeName
            fileName := safeName
            fileSize := content.length
            mimeType := mime }

/-- `save_upload`: a request's files live under its bare id. -/
def saveUpload (maxUploadMb : Nat) (upload : Upload) (requestId : Nat) : Except Exc FileMeta :=
  store maxUploadMb upload (toString requestId)

/-- `save_auto_reply_upload`: kept apart from the per-request folders. -/
def saveAutoReplyUpload (maxUploadMb : Nat) (upload : Upload) (categoryId : Nat) :
    Except Exc FileMeta :=
  store maxUploadMb upload ("auto_reply/" ++ toString categoryId)

end Royd

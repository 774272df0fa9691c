/-
Royd.Services.Catalog — `services/catalog_service.py`: the rules that keep
the catalogue at exactly two levels, and the lookups a filing makes in it.

A `PATCH` body reaches `apply_category_update` as the fields that were sent
(`exclude_unset`), so a field of `CategoryUpdate` is `none` when it was not
sent and `some none` when it was sent as null.
-/
import Royd.Models.Db
import Royd.Services.Files

namespace Royd

/-- `CategoryCreate`. -/
structure CategoryCreate where
  parentId : Option Nat := none
  name : String
  description : Option String := none
  slaHours : Nat := 24
  priority : Priority := .normal
  routing : ServiceRouting := .facultyManager
  autoReplyText : Option String := none
  autoReplyDescription : Option String := none
  assigneeId : Option Nat := none
  icon : Option String := none
  deriving DecidableEq, Repr

/-- `CategoryUpdate`, as `model_dump(exclude_unset=True)` gives it. -/
structure CategoryUpdate where
  parentId : Option (Option Nat) := none
  name : Option (Option String) := none
  description : Option (Option String) := none
  slaHours : Option (Option Nat) := none
  priority : Option (Option Priority) := none
  routing : Option (Option ServiceRouting) := none
  autoReplyText : Option (Option String) := none
  autoReplyDescription : Option (Option String) := none
  assigneeId : Option (Option Nat) := none
  icon : Option (Option String) := none
  isActive : Option (Option Bool) := none
  deriving DecidableEq, Repr

/-- `_clean`: stripped, and absent when nothing is left. -/
def clean (text : Option String) : Option String :=
  let stripped := strip (text.getD "")
  if stripped == "" then none else some stripped

/-- `_parent_request_type`: only a root may be a parent. -/
def parentRequestType (db : Db) (parentId : Nat) (moving : Option RequestCategory) :
    Except Exc RequestCategory :=
  if moving.map (·.id) = some parentId then
    .error (.http 400 "Tur o'ziga ota bo'la olmaydi")
  else
    match db.getCategory parentId with
    | none => .error (.http 404 "Murojaat turi topilmadi")
    | some parent =>
      if parent.parentId.isSome then
        .error (.http 400 "Xizmat turi faqat murojaat turi ichida yaratiladi")
      else .ok parent

/-- `_check_auto_reply`: an auto-answered service must have something to
answer with. -/
def checkAutoReply (routing : ServiceRouting) (autoReplyText : Option String) : Except Exc Unit :=
  if routing = .autoReply ∧ (clean autoReplyText).isNone then
    .error (.http 422 "Avtomatik javob beriladigan xizmat turi uchun javob matnini kiriting")
  else .ok ()

/-- `_check_assignee`: only a general-issues service takes an employee, and
only one routing may hand requests to. -/
def checkAssignee (db : Db) (routing : ServiceRouting) (assigneeId : Option Nat) :
    Except Exc Unit :=
  match assigneeId with
  | none => .ok ()
  | some id =>
    if routing ≠ .generalManager then
      .error (.http 400
        "Mas'ul xodim faqat «Umumiy masalalar menejeriga» yo'nalishida biriktiriladi")
    else
      let chosen := db.users.find? fun u => u.id == id && u.isActive
      if chosen.any (·.hasRole [.staff, .registrator]) then .ok ()
      else .error (.http 400 "Mas'ul xodim faqat faol xodim yoki registrator bo'lishi mumkin")

/-- `build_category`: a new request type, or a service type when `parent_id`
names one. -/
def buildCategory (db : Db) (data : CategoryCreate) : Except Exc Db :=
  match data.parentId with
  | none =>
    .ok { db with
      nextId := db.nextId + 1
      categories := db.categories ++
        [{ id := db.nextId
           parentId := none
           name := strip data.name
           description := clean data.description
           icon := data.icon }] }
  | some parentId => do
    let parent ← parentRequestType db parentId none
    checkAutoReply data.routing data.autoReplyText
    checkAssignee db data.routing data.assigneeId
    .ok { db with
      nextId := db.nextId + 1
      categories := db.categories ++
        [{ id := db.nextId
           parentId := some parent.id
           name := strip data.name
           description := clean data.description
           slaHours := data.slaHours
           priority := data.priority
           routing := data.routing
           autoReplyText := clean data.autoReplyText
           autoReplyDescription := clean data.autoReplyDescription
           assigneeId := data.assigneeId
           icon := data.icon }] }

/-- The `setattr` loop of `apply_category_update`, with what is dropped and
cleaned before it: an explicit null leaves a NOT NULL column alone. -/
def setFields (cat : RequestCategory) (payload : CategoryUpdate) : RequestCategory :=
  { cat with
    parentId := payload.parentId.getD cat.parentId
    name := ((payload.name.getD none).map strip).getD cat.name
    description := (payload.description.map clean).getD cat.description
    slaHours := (payload.slaHours.getD none).getD cat.slaHours
    priority := (payload.priority.getD none).getD cat.priority
    routing := (payload.routing.getD none).getD cat.routing
    autoReplyText := (payload.autoReplyText.map clean).getD cat.autoReplyText
    autoReplyDescription := (payload.autoReplyDescription.map clean).getD cat.autoReplyDescription
    assigneeId := payload.assigneeId.getD cat.assigneeId
    icon := payload.icon.getD cat.icon
    isActive := (payload.isActive.getD none).getD cat.isActive }

/-- The check `apply_category_update` makes when `parent_id` was sent. -/
def checkMove (db : Db) (cat : RequestCategory) (sent : Option (Option Nat)) : Except Exc Unit :=
  match sent with
  | none => .ok ()
  | some newParent =>
    if newParent.isNone ≠ cat.parentId.isNone then
      .error (.http 400 "Murojaat turini xizmat turiga yoki aksincha aylantirib bo'lmaydi")
    else
      match newParent with
      | none => .ok ()
      | some id => (parentRequestType db id (some cat)).map fun _ => ()

/-- Only a leaf answers by itself. -/
def checkLeaf (cat : RequestCategory) : Except Exc Unit :=
  if cat.parentId.isSome then checkAutoReply cat.routing cat.autoReplyText else .ok ()

/-- The last step of `apply_category_update`: an assignee that was sent is
checked, and moving off general routing drops the one that was chosen. -/
def settleAssignee (db : Db) (cat : RequestCategory) (sent : Bool) : Except Exc RequestCategory :=
  if sent then (checkAssignee db cat.routing cat.assigneeId).map fun _ => cat
  else if cat.routing ≠ .generalManager then .ok { cat with assigneeId := none }
  else .ok cat

/-- `apply_category_update`: the row after a partial update. -/
def applyCategoryUpdate (db : Db) (cat : RequestCategory) (payload : CategoryUpdate) :
    Except Exc RequestCategory := do
  checkMove db cat payload.parentId
  let cat := setFields cat payload
  checkLeaf cat
  settleAssignee db cat payload.assigneeId.isSome

/-- `list_auto_reply_files`: rows come in the order they were added. -/
def listAutoReplyFiles (db : Db) (cat : RequestCategory) : List AutoReplyFile :=
  db.autoReplyFiles.filter (·.categoryId == cat.id)

/-- `add_auto_reply_file`. -/
def addAutoReplyFile (cfg : Settings) (db : Db) (cat : RequestCategory) (upload : Upload)
    (uploader : Nat) (now : Int) : Except Exc Db :=
  if cat.parentId.isNone ∨ cat.routing ≠ .autoReply then
    .error (.http 400
      "Fayl faqat «Avtomatik javob» yo'nalishidagi xizmat turiga biriktiriladi")
  else if (listAutoReplyFiles db cat).length ≥ maxAnswerFiles then
    .error (.http 422 s!"Javobga ko'pi bilan {maxAnswerFiles} ta fayl biriktiring")
  else
    match saveAutoReplyUpload cfg.maxUploadMb upload cat.id with
    | .error e => .error e
    | .ok fileMeta =>
      .ok { db with
        nextId := db.nextId + 1
        autoReplyFiles := db.autoReplyFiles ++
          [{ id := db.nextId
             categoryId := cat.id
             uploadedBy := uploader
             filePath := fileMeta.filePath
             fileName := fileMeta.fileName
             fileSize := fileMeta.fileSize
             mimeType := fileMeta.mimeType
             createdAt := now }] }

/-- `remove_auto_reply_file`: only the row goes. -/
def removeAutoReplyFile (db : Db) (cat : RequestCategory) (fileId : Nat) : Except Exc Db :=
  match db.autoReplyFiles.find? fun f => f.id == fileId && f.categoryId == cat.id with
  | none => .error (.http 404 "Fayl topilmadi")
  | some record =>
    .ok { db with autoReplyFiles := db.autoReplyFiles.filter (·.id != record.id) }

/-- `resolve_service`: load the chosen service type, verifying it is a
usable leaf. -/
def resolveService (db : Db) (serviceId : Nat) (serviceTypeId : Option Nat) :
    Except Exc RequestCategory :=
  match db.getCategory serviceId with
  | none => .error (.http 400 "Tanlangan xizmat turi topilmadi")
  | some service =>
    if ¬ service.isActive then .error (.http 400 "Tanlangan xizmat turi faol emas")
    else
      match service.parentId with
      | none => .error (.http 400 "Murojaat turini emas, aniq xizmat turini tanlang")
      | some parentId =>
        match db.getCategory parentId with
        | none => .error (.http 400 "Murojaat turi topilmadi")
        | some requestType =>
          if ¬ requestType.isActive then
            .error (.http 400 "Tanlangan murojaat turi faol emas")
          else if serviceTypeId.isSome ∧ serviceTypeId ≠ some requestType.id then
            .error (.http 400 "Tanlangan xizmat turi ushbu murojaat turiga tegishli emas")
          else .ok service

end Royd

/-
Royd.Models.Category — `models/category.py`: the two-level catalogue.

A root row (`parentId = none`) is a request type, a heading only. Its
child rows are service types, the leaves a request is filed under; they
carry the SLA, the priority and the routing applied to that request.
-/

namespace Royd

/-- Where a request filed under a service goes, chosen per service. -/
inductive ServiceRouting where
  | autoReply
  | facultyManager
  | generalManager
  deriving DecidableEq, Repr

/-- The `priority` literals of the catalogue schemas. -/
inductive Priority where
  | low
  | normal
  | high
  | critical
  deriving DecidableEq, Repr

/-- `request_categories`. -/
structure RequestCategory where
  id : Nat
  parentId : Option Nat
  name : String
  description : Option String := none
  slaHours : Nat := 24
  priority : Priority := .normal
  routing : ServiceRouting := .facultyManager
  autoReplyText : Option String := none
  autoReplyDescription : Option String := none
  assigneeId : Option Nat := none
  isActive : Bool := true
  icon : Option String := none
  deriving DecidableEq, Repr

/-- `auto_reply_files`: a file an `auto_reply` service sends with its answer. -/
structure AutoReplyFile where
  id : Nat
  categoryId : Nat
  uploadedBy : Nat
  filePath : String
  fileName : String
  fileSize : Nat
  mimeType : String
  createdAt : Int
  deriving DecidableEq, Repr

end Royd

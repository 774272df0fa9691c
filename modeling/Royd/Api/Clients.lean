/-
Royd.Api.Clients — the API clients of `models/api_client.py`: their
management (`services/api_client_service.py`, `api/v1/api_clients.py`), the
token endpoint, and `get_current_client`, which every integration call goes
through.

A token is its claims: what PyJWT makes of the text, or that it refuses it,
is `Bearer`. `sha256` stands for the hex digest of a secret.
-/
import Royd.Api.Steps

namespace Royd.Api

/-! ## The table -/

namespace ApiClient

def requestsRead : String := "requests:read"
def requestsWrite : String := "requests:write"
def catalogsRead : String := "catalogs:read"

/-- `SCOPES`: every scope a client can be granted, in its order. -/
def SCOPES : List String := [requestsRead, requestsWrite, catalogsRead]

end ApiClient

/-- `api_clients`. -/
structure ClientRow where
  id : Nat
  name : String
  description : Option String := none
  clientId : String
  secretHash : String
  secretVersion : Nat := 1
  scopes : List String := []
  isActive : Bool := true
  createdBy : Option Nat := none
  lastUsedAt : Option Int := none
  deriving DecidableEq, Repr

/-- The client as the handlers of its requests use it. -/
def ClientRow.caller (row : ClientRow) : ApiClient := ⟨row.id, row.clientId⟩

/-- `text.split()` on characters, with the word read so far. -/
def splitChars : List Char → List Char → List (List Char)
  | [], word => if word.isEmpty then [] else [word]
  | c :: cs, word =>
    if isSpace c then
      if word.isEmpty then splitChars cs [] else word :: splitChars cs []
    else splitChars cs (word ++ [c])

/-- `text.split()`. -/
def words (text : String) : List String := (splitChars text.toList []).map String.ofList

/-! ## Tokens -/

/-- The claims of a client's token, and of any other that is presented as
one: `sub`, `ver` and `scope` may be missing. -/
structure ClientClaims where
  type : String
  sub : Nat := 0
  ver : Option Nat := none
  scope : String := ""
  deriving DecidableEq, Repr

/-- The `Authorization` header: absent, a text that `decode_token` refuses,
or a token with its claims. -/
inductive Bearer where
  | absent
  | refused
  | token (claims : ClientClaims)
  deriving DecidableEq, Repr

/-- `db.get(ApiClient, id)`. -/
def findClient (clients : List ClientRow) (id : Nat) : Option ClientRow := clients.find? (·.id == id)

/-- The required scopes that the token does not carry, or that the client
no longer has. -/
def missingScopes (client : ClientRow) (claims : ClientClaims) (required : List String) :
    List String :=
  let granted := (words claims.scope).filter (client.scopes.contains ·)
  required.filter (!granted.contains ·)

/-- `get_current_client`, asked for the scopes `required`. -/
def getCurrentClient (clients : List ClientRow) (required : List String) :
    Bearer → Except Exc ClientRow
  | .absent => .error (.http 401 "Not authenticated")
  | .refused => .error (.http 401 "Invalid or expired token")
  | .token claims =>
    if claims.type ≠ "client" then .error (.http 401 "Invalid token type")
    else match findClient clients claims.sub with
      | none => .error (.http 401 "Client revoked")
      | some client =>
        -- A deactivated client, or a token minted before the secret was rotated.
        if ¬ client.isActive ∨ claims.ver ≠ some client.secretVersion then
          .error (.http 401 "Client revoked")
        else if (missingScopes client claims required).isEmpty then .ok client
        else .error (.http 403 ("Ruxsat yetarli emas: "
          ++ ", ".intercalate (missingScopes client claims required)))

/-- What a call is let through on: the client is there and active, its
secret was not rotated since the token was minted, and every required scope
is both in the token and still granted. -/
structure Admits (clients : List ClientRow) (required : List String) (claims : ClientClaims)
    (client : ClientRow) : Prop where
  type : claims.type = "client"
  found : findClient clients claims.sub = some client
  active : client.isActive = true
  current : claims.ver = some client.secretVersion
  scopes : ∀ scope ∈ required, scope ∈ words claims.scope ∧ scope ∈ client.scopes

theorem missingScopes_isEmpty {client : ClientRow} {claims : ClientClaims}
    {required : List String} : (missingScopes client claims required).isEmpty = true ↔
      ∀ scope ∈ required, scope ∈ words claims.scope ∧ scope ∈ client.scopes := by
  unfold missingScopes
  simp [List.isEmpty_iff, List.filter_eq_nil_iff]

theorem getCurrentClient_eq_ok {clients : List ClientRow} {required : List String} {bearer : Bearer}
    {client : ClientRow} (h : getCurrentClient clients required bearer = .ok client) :
    ∃ claims, bearer = .token claims ∧ Admits clients required claims client := by
  cases bearer with
  | absent => cases h
  | refused => cases h
  | token claims =>
    refine ⟨claims, rfl, ?_⟩
    unfold getCurrentClient at h
    dsimp only at h
    split at h
    · cases h
    rename_i htype
    split at h
    · cases h
    rename_i row hfound
    split at h
    · cases h
    rename_i hvalid
    split at h
    · rename_i hscopes
      cases h
      rw [not_or, not_not, not_not] at hvalid
      exact ⟨not_not.mp htype, hfound, hvalid.1, hvalid.2, missingScopes_isEmpty.mp hscopes⟩
    · cases h

/-! ## Managing clients -/

section Manage

variable (sha256 : String → String) (clients : List ClientRow)

/-- `_check_scopes`. -/
def checkScopes (value : List String) : Except Exc (List String) :=
  let unknown := value.filter (!ApiClient.SCOPES.contains ·)
  if unknown.isEmpty then .ok (ApiClient.SCOPES.filter (value.contains ·))
  else .error (.http 422 ("Noma'lum scope: " ++ ", ".intercalate unknown))

/-- `_assert_name_free`. -/
def assertNameFree (name : String) (excludeId : Option Nat) : Except Exc Unit :=
  if clients.any fun c => c.name == name && some c.id != excludeId then
    .error (.http 409 "Bu nomdagi integratsiya allaqachon mavjud")
  else .ok ()

/-- `get_client`. -/
def getClient (id : Nat) : Except Exc ClientRow :=
  match findClient clients id with
  | some client => .ok client
  | none => .error (.http 404 "Integratsiya topilmadi")

/-- `ApiClientCreate`. -/
structure ApiClientCreate where
  name : String
  description : Option String := none
  scopes : List String
  deriving DecidableEq, Repr

/-- `ApiClientUpdate`, as `update` reads it: of the fields that were sent
only `description` can be cleared. -/
structure ApiClientUpdate where
  name : Option String := none
  description : Option (Option String) := none
  scopes : Option (List String) := none
  isActive : Option Bool := none
  deriving DecidableEq, Repr

/-- `create_client`, for scopes that were checked. The credentials are the
random ones it draws. -/
def createClient (id : Nat) (data : ApiClientCreate) (credentials : String × String)
    (createdBy : Nat) : Except Exc ClientRow := do
  assertNameFree clients (strip data.name) none
  .ok
    { id
      name := strip data.name
      description := data.description
      clientId := credentials.1
      secretHash := sha256 credentials.2
      scopes := data.scopes
      createdBy := some createdBy }

/-- The name check of `update_client`. -/
def checkRename (client : ClientRow) (name : String) : Except Exc Unit :=
  if name = client.name then .ok () else assertNameFree clients name (some client.id)

/-- `update_client`, for scopes that were checked. -/
def updateClient (client : ClientRow) (data : ApiClientUpdate) : Except Exc ClientRow := do
  let name := (data.name.map strip).getD client.name
  checkRename clients client name
  .ok
    { client with
      name
      description := data.description.getD client.description
      scopes := data.scopes.getD client.scopes
      isActive := data.isActive.getD client.isActive }

/-- `rotate_secret`: tokens carry the version, so the old ones stop working. -/
def rotateSecret (client : ClientRow) (secret : String) : ClientRow :=
  { client with
    secretHash := sha256 secret
    secretVersion := client.secretVersion + 1 }

/-- `UPDATE api_clients ... WHERE id = :id`. -/
def putClient (client : ClientRow) : List ClientRow :=
  clients.map fun c => if c.id = client.id then client else c

/-- `authenticate_client`. -/
def authenticateClient (clientId clientSecret : String) (now : Int) : Option ClientRow :=
  match clients.find? (·.clientId == clientId) with
  | none => none
  | some client =>
    if ¬ client.isActive then none
    else if sha256 clientSecret = client.secretHash then some { client with lastUsedAt := some now }
    else none

/-- The form of a token request. -/
structure TokenForm where
  grantType : Option String := none
  scope : Option String := none
  clientId : Option String := none
  clientSecret : Option String := none
  deriving DecidableEq, Repr

/-- `not text`. -/
def absent (text : Option String) : Bool := (text.getD "").isEmpty

/-- `_oauth_error`: status, error code and description. -/
structure OAuthError where
  status : Nat
  error : String
  description : String
  deriving DecidableEq, Repr

/-- What `issue_token` checks before it looks at the credentials. -/
def checkForm (form : TokenForm) : Except OAuthError Unit :=
  if absent form.grantType then
    .error ⟨400, "invalid_request", "grant_type majburiy"⟩
  else if form.grantType ≠ some "client_credentials" then
    .error ⟨400, "unsupported_grant_type", "Faqat client_credentials qo'llab-quvvatlanadi"⟩
  else if absent form.clientId ∨ absent form.clientSecret then
    .error ⟨401, "invalid_client", "client_id va client_secret majburiy"⟩
  else .ok ()

/-- `issue_token`: the claims of the new token, and the client's row as the
exchange leaves it. -/
def issueToken (form : TokenForm) (now : Int) : Except OAuthError (ClientClaims × ClientRow) := do
  checkForm form
  let client ← match authenticateClient sha256 clients (form.clientId.getD "")
      (form.clientSecret.getD "") now with
    | some client => .ok client
    | none => .error ⟨401, "invalid_client", "client_id yoki client_secret noto'g'ri"⟩
  let requested := if absent form.scope then client.scopes else words (form.scope.getD "")
  let extra := requested.filter (!client.scopes.contains ·)
  if extra.isEmpty then
    .ok ({ type := "client"
           sub := client.id
           ver := some client.secretVersion
           scope := " ".intercalate (ApiClient.SCOPES.filter (requested.contains ·)) }, client)
  else
    .error ⟨400, "invalid_scope", "Bu client'ga berilmagan scope: "
      ++ ", ".intercalate (extra.eraseDups.mergeSort fun a b => decide (a ≤ b))⟩

/-- The endpoints under `/admin/api-clients` that change a client. The
random credentials of a call are part of it. -/
inductive ClientEdit where
  | create (data : ApiClientCreate) (credentials : String × String)
  | update (id : Nat) (data : ApiClientUpdate)
  | rotate (id : Nat) (secret : String)
  deriving DecidableEq, Repr

/-- What an edit by the user `userId` leaves of the table. -/
def ClientEdit.apply (nextId userId : Nat) : ClientEdit → Except Exc (List ClientRow)
  | .create data credentials => do
    let scopes ← checkScopes data.scopes
    let client ← createClient sha256 clients nextId { data with scopes } credentials userId
    .ok (clients ++ [client])
  | .update id data => do
    let scopes ← match data.scopes with
      | some value => (checkScopes value).map some
      | none => .ok none
    let client ← getClient clients id
    let client' ← updateClient clients client { data with scopes }
    .ok (putClient clients client')
  | .rotate id secret => do
    let client ← getClient clients id
    .ok (putClient clients (rotateSecret sha256 client secret))

end Manage

/-! ## Everybody's calls -/

/-- The integration endpoints that change something. -/
inductive ClientWrite where
  | createRequest (profile : StudentProfile) (data : RequestCreate) (key : Option String)
      (trackingNo : String)
  | addMessage (requestId : Nat) (content : String)
  | uploadFile (requestId : Nat) (file : Upload)
  | resubmit (requestId : Nat) (comment : Option String)
  deriving DecidableEq, Repr

/-- The step of the system that the call of a client is. -/
def ClientWrite.step (client : ApiClient) : ClientWrite → Step
  | .createRequest profile data key trackingNo => .clientCreate client profile data key trackingNo
  | .addMessage requestId content => .call (.clientMessage client requestId content)
  | .uploadFile requestId file => .call (.clientUpload client requestId file)
  | .resubmit requestId comment => .call (.clientResubmit client requestId comment)

/-- The integration a step goes through. -/
def Step.client? : Step → Option ApiClient
  | .clientCreate client .. => some client
  | .call (.clientMessage client ..) => some client
  | .call (.clientUpload client ..) => some client
  | .call (.clientResubmit client ..) => some client
  | _ => none

/-- The tables with the integrations. -/
structure World where
  db : Db
  clients : List ClientRow := []
  nextClientId : Nat := 1
  deriving DecidableEq, Repr

/-- Whatever reaches the application: a step inside it, a call of an
integration with its token, an edit of the integrations by a user, or the
exchange of credentials for a token. -/
inductive Action where
  | inside (step : Step) (noClient : step.client? = none)
  | integration (bearer : Bearer) (call : ClientWrite)
  | manage (userId : Nat) (edit : ClientEdit)
  | exchange (form : TokenForm)
  deriving DecidableEq, Repr

/-- An action and the instant it is made at. -/
structure Happening where
  now : Int
  action : Action
  deriving DecidableEq, Repr

variable (cfg : Settings) (sha256 : String → String)

/-- The step of the request tables that an action comes to, if it is let
through. -/
def World.event? (w : World) (h : Happening) : Option Event :=
  match h.action with
  | .inside step _ => some ⟨h.now, step⟩
  | .integration bearer call =>
    match getCurrentClient w.clients [ApiClient.requestsWrite] bearer with
    | .ok client => some ⟨h.now, call.step client.caller⟩
    | .error _ => none
  | .manage .. => none
  | .exchange .. => none

/-- The clients after an action. -/
def World.clientsAfter (w : World) (h : Happening) : Except Exc (List ClientRow) :=
  match h.action with
  | .inside .. => .ok w.clients
  | .integration .. => .ok w.clients
  | .manage userId edit => do
    let actor ← requireRoles w.db userId [.admin]
    edit.apply sha256 w.clients w.nextClientId actor.id
  | .exchange form =>
    match issueToken sha256 w.clients form h.now with
    | .ok (_, client) => .ok (putClient w.clients client)
    | .error _ => .ok w.clients

/-- The world after an action. -/
def World.step (w : World) (h : Happening) : World where
  db := match w.event? h with
    | some e => Api.step cfg w.db e
    | none => w.db
  clients := match w.clientsAfter sha256 h with
    | .ok clients => clients
    | .error _ => w.clients
  nextClientId := w.nextClientId + 1

end Royd.Api

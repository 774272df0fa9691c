/-
Royd.Concurrent.Rotations — the credentials of the integrations while
several transactions work on one client.

`rotate_secret`, `update_client` and the token exchange load the client's
row and later write back the columns they changed, by primary key. Nothing
is locked in between, so the version a rotation writes is one more than the
version it loaded, whatever the row holds by then. A token is compared with
the row at the moment of the call, so what it is worth hangs on a version
never standing for two secrets: `InStep` is the condition for that, and
`Row.Stamped` the invariant it keeps.
-/
import Royd.Api.Clients
import Royd.Lib.Runs
import Royd.Lib.Tables

namespace Royd

open Api

namespace Api

/-- The columns a transaction changed, written onto the row as it is by
then. -/
def ClientRow.write (row loaded changed : ClientRow) : ClientRow :=
  { row with
    name := if changed.name = loaded.name then row.name else changed.name
    description :=
      if changed.description = loaded.description then row.description else changed.description
    secretHash :=
      if changed.secretHash = loaded.secretHash then row.secretHash else changed.secretHash
    secretVersion :=
      if changed.secretVersion = loaded.secretVersion then row.secretVersion
      else changed.secretVersion
    scopes := if changed.scopes = loaded.scopes then row.scopes else changed.scopes
    isActive := if changed.isActive = loaded.isActive then row.isActive else changed.isActive
    lastUsedAt :=
      if changed.lastUsedAt = loaded.lastUsedAt then row.lastUsedAt else changed.lastUsedAt }

end Api

namespace Rotations

/-! ## Transactions -/

/-- What is asked of a client's row. The secret of a rotation is the random
one it draws. -/
inductive Order where
  | rotate (clientPk : Nat) (secret : String)
  | update (clientPk : Nat) (data : ApiClientUpdate)
  | exchange (form : TokenForm)
  deriving DecidableEq, Repr

/-- A token that was handed out, and the secret it was handed out for. -/
structure Grant where
  claims : ClientClaims
  secret : String
  deriving DecidableEq, Repr

/-- A transaction between its load and its commit: the row as it was loaded,
and as the code has changed it since; a token goes out with the commit. -/
structure Transaction where
  loaded : ClientRow
  changed : ClientRow
  grant : Option Grant := none
  deriving DecidableEq, Repr

/-- The table, and everything that is under way or was handed out. -/
structure Desk where
  clients : List ClientRow := []
  nextId : Nat := 1
  underWay : List Transaction := []
  grants : List Grant := []
  deriving DecidableEq, Repr

variable (sha256 : String → String)

/-- `_check_scopes` of `ApiClientUpdate`, for scopes that may not be sent. -/
def checkSentScopes : Option (List String) → Except Exc (Option (List String))
  | some value => (checkScopes value).map some
  | none => .ok none

/-- The schema check of `ApiClientUpdate` and the body of `update`. -/
def prepareUpdate (clients : List ClientRow) (clientPk : Nat) (data : ApiClientUpdate) :
    Except Exc Transaction := do
  let scopes ← checkSentScopes data.scopes
  let client ← getClient clients clientPk
  let changed ← updateClient clients client { data with scopes }
  .ok { loaded := client, changed }

/-- `rotate`, `update` and `issue_token` up to their commit, if their checks
pass. -/
def Order.load (clients : List ClientRow) (now : Int) : Order → Option Transaction
  | .rotate clientPk secret =>
    (getClient clients clientPk).toOption.map fun client =>
      { loaded := client, changed := rotateSecret sha256 client secret }
  | .update clientPk data => (prepareUpdate clients clientPk data).toOption
  | .exchange form =>
    (clients.find? (·.clientId == form.clientId.getD "")).bind fun client =>
      (issueToken sha256 clients form now).toOption.map fun (claims, used) =>
        { loaded := client
          changed := used
          grant := some { claims, secret := form.clientSecret.getD "" } }

/-- The unique constraint on the names, which the commit meets or not. -/
def nameTaken (clients : List ClientRow) (tx : Transaction) : Bool :=
  tx.changed.name != tx.loaded.name &&
    clients.any fun c => c.id != tx.loaded.id && c.name == tx.changed.name

/-- `UPDATE api_clients SET ... WHERE id = :id`, with the columns that were
changed. -/
def Transaction.commit (tx : Transaction) (clients : List ClientRow) : List ClientRow :=
  clients.map fun row => if row.id = tx.loaded.id then row.write tx.loaded tx.changed else row

/-- What can happen. A call presents one of the tokens that were handed out
and asks for scopes; what else may stand in its header `get_current_client`
refuses. -/
inductive Happening where
  | create (data : ApiClientCreate) (credentials : String × String) (createdBy : Nat)
  | load (order : Order) (now : Int)
  | commit (i : Nat)
  | drop (i : Nat)
  | call (i : Nat) (required : List String)
  deriving DecidableEq, Repr

/-- What it does to the desk. A call only reads. -/
def Desk.step (desk : Desk) : Happening → Desk
  | .create data credentials createdBy =>
    if desk.clients.any (·.clientId == credentials.1) then desk
    else match (ClientEdit.create data credentials).apply sha256 desk.clients desk.nextId
        createdBy with
      | .ok clients => { desk with clients, nextId := desk.nextId + 1 }
      | .error _ => desk
  | .load order now =>
    match order.load sha256 desk.clients now with
    | some tx => { desk with underWay := desk.underWay ++ [tx] }
    | none => desk
  | .commit i =>
    match desk.underWay[i]? with
    | some tx =>
      if nameTaken desk.clients tx then { desk with underWay := desk.underWay.eraseIdx i }
      else
        { desk with
          clients := tx.commit desk.clients
          underWay := desk.underWay.eraseIdx i
          grants := desk.grants ++ tx.grant.toList }
    | none => desk
  | .drop i => { desk with underWay := desk.underWay.eraseIdx i }
  | .call .. => desk

/-! ## The law -/

/-- A call that is let through carries a token that was minted from the
secret its client has now, and the client is active and holds the scopes. -/
def CallHonest (desk : Desk) : Happening → Prop
  | .call i required => ∀ grant, desk.grants[i]? = some grant → ∀ client,
      getCurrentClient desk.clients required (.token grant.claims) = .ok client →
      client ∈ desk.clients ∧ sha256 grant.secret = client.secretHash ∧ client.isActive = true ∧
        ∀ scope ∈ required, scope ∈ client.scopes
  | _ => True

/-- A rotation that commits makes its own secret the current one. -/
def RotationTakes (desk : Desk) : Happening → Prop
  | .commit i => ∀ tx, desk.underWay[i]? = some tx →
      tx.changed.secretVersion ≠ tx.loaded.secretVersion →
      ∀ row ∈ (desk.step sha256 (.commit i)).clients, row.id = tx.loaded.id →
        row.secretHash = tx.changed.secretHash
  | _ => True

/-- A rotation commits onto the version it loaded: no other rotation of the
client was committed in between. -/
def InStep (desk : Desk) : Happening → Prop
  | .commit i => ∀ tx, desk.underWay[i]? = some tx →
      tx.changed.secretVersion ≠ tx.loaded.secretVersion →
      ∀ row ∈ desk.clients, row.id = tx.loaded.id → row.secretVersion = tx.loaded.secretVersion
  | _ => True

instance decidableInStep (desk : Desk) : ∀ e, Decidable (InStep desk e)
  | .commit i => inferInstanceAs (Decidable (∀ tx ∈ desk.underWay[i]?,
      tx.changed.secretVersion ≠ tx.loaded.secretVersion →
      ∀ row ∈ desk.clients, row.id = tx.loaded.id → row.secretVersion = tx.loaded.secretVersion))
  | .create .. => .isTrue trivial
  | .load .. => .isTrue trivial
  | .drop .. => .isTrue trivial
  | .call .. => .isTrue trivial

/-! ## What a load finds -/

/-- A transaction as its load leaves it: it keeps the credentials or moves
them on by one, and what it hands out was minted from what it loaded. -/
structure Transaction.Fits (tx : Transaction) : Prop where
  credentials : (tx.changed.secretVersion = tx.loaded.secretVersion ∧
      tx.changed.secretHash = tx.loaded.secretHash) ∨
    (tx.changed.secretVersion = tx.loaded.secretVersion + 1 ∧ tx.changed.name = tx.loaded.name)
  grant : ∀ g, tx.grant = some g → g.claims.sub = tx.loaded.id ∧
    g.claims.ver = some tx.loaded.secretVersion ∧ sha256 g.secret = tx.loaded.secretHash

variable {sha256}

theorem getClient_eq_ok {clients : List ClientRow} {id : Nat} {client : ClientRow}
    (h : getClient clients id = .ok client) : findClient clients id = some client := by
  unfold getClient at h
  split at h
  · rename_i heq
    cases h
    exact heq
  · cases h

theorem findClient_mem {clients : List ClientRow} {id : Nat} {client : ClientRow}
    (h : findClient clients id = some client) : client ∈ clients ∧ client.id = id :=
  Tables.find?_mem h

theorem updateClient_credentials {clients : List ClientRow} {client changed : ClientRow}
    {data : ApiClientUpdate} (h : updateClient clients client data = .ok changed) :
    changed.secretVersion = client.secretVersion ∧ changed.secretHash = client.secretHash := by
  simp only [updateClient] at h
  cases hcheck : checkRename clients client ((data.name.map strip).getD client.name) with
  | error e =>
    rw [hcheck] at h
    cases h
  | ok _ =>
    rw [hcheck] at h
    cases h
    exact ⟨rfl, rfl⟩

/-- What a successful exchange says of the client that its id finds. -/
theorem issueToken_eq_ok {clients : List ClientRow} {form : TokenForm} {now : Int}
    {claims : ClientClaims} {client used : ClientRow}
    (hfound : clients.find? (·.clientId == form.clientId.getD "") = some client)
    (h : issueToken sha256 clients form now = .ok (claims, used)) :
    used = { client with lastUsedAt := some now } ∧ client.isActive = true ∧
      sha256 (form.clientSecret.getD "") = client.secretHash ∧
      claims.sub = client.id ∧ claims.ver = some client.secretVersion := by
  simp only [issueToken, authenticateClient, hfound] at h
  cases hform : checkForm form with
  | error e =>
    rw [hform] at h
    cases h
  | ok _ =>
    rw [hform] at h
    by_cases hactive : client.isActive = true
    · by_cases hsecret : sha256 (form.clientSecret.getD "") = client.secretHash
      · rw [if_neg (not_not.mpr hactive), if_pos hsecret] at h
        simp only [Except.bind, bind] at h
        generalize (if absent form.scope = true then client.scopes
          else words (form.scope.getD "")) = requested at h
        split at h
        · cases h
          exact ⟨rfl, hactive, hsecret, rfl, rfl⟩
        · cases h
      · rw [if_neg (not_not.mpr hactive), if_neg hsecret] at h
        cases h
    · rw [if_pos hactive] at h
      cases h

theorem prepareUpdate_eq_ok {clients : List ClientRow} {clientPk : Nat} {data : ApiClientUpdate}
    {tx : Transaction} (h : prepareUpdate clients clientPk data = .ok tx) :
    tx.loaded ∈ clients ∧ tx.grant = none ∧ tx.changed.secretVersion = tx.loaded.secretVersion ∧
      tx.changed.secretHash = tx.loaded.secretHash := by
  unfold prepareUpdate at h
  obtain ⟨scopes, -, h⟩ := bind_eq_ok.mp h
  obtain ⟨client, hget, h⟩ := bind_eq_ok.mp h
  obtain ⟨changed, hupdate, h⟩ := bind_eq_ok.mp h
  cases h
  exact ⟨(findClient_mem (getClient_eq_ok hget)).1, rfl, updateClient_credentials hupdate⟩

/-- A load takes its row from the table. -/
theorem load_fits {clients : List ClientRow} {now : Int} {order : Order} {tx : Transaction}
    (h : order.load sha256 clients now = some tx) : tx.loaded ∈ clients ∧ tx.Fits sha256 := by
  cases order with
  | rotate clientPk secret =>
    obtain ⟨client, hget, rfl⟩ := Option.map_eq_some_iff.mp h
    have hfound := getClient_eq_ok (toOption_eq_some.mp hget)
    exact ⟨(findClient_mem hfound).1, .inr ⟨rfl, rfl⟩, fun g hg => by cases hg⟩
  | update clientPk data =>
    obtain ⟨hmem, hgrant, hkept⟩ := prepareUpdate_eq_ok (toOption_eq_some.mp h)
    exact ⟨hmem, .inl hkept, fun g hg => by rw [hgrant] at hg; cases hg⟩
  | exchange form =>
    obtain ⟨client, hfound, h⟩ := Option.bind_eq_some_iff.mp h
    obtain ⟨⟨claims, used⟩, hissue, rfl⟩ := Option.map_eq_some_iff.mp h
    obtain ⟨rfl, -, hsecret, hsub, hver⟩ := issueToken_eq_ok hfound (toOption_eq_some.mp hissue)
    refine ⟨List.mem_of_find?_eq_some hfound, .inl ⟨rfl, rfl⟩, fun g hg => ?_⟩
    cases hg
    exact ⟨hsub, hver, hsecret⟩

/-! ## A version stands for one secret -/

/-- The secret with this digest was the client's at this version: the client
has not fallen behind it, and the version still stands for that secret. -/
def Dated (clients : List ClientRow) (id version : Nat) (hash : String) : Prop :=
  ∀ row ∈ clients, row.id = id →
    version ≤ row.secretVersion ∧ (version = row.secretVersion → hash = row.secretHash)

variable (sha256)

/-- What the induction carries: ids tell the clients apart, and whatever was
loaded or handed out is dated. -/
structure Desk.Ok (desk : Desk) : Prop where
  ids : (desk.clients.map (·.id)).Nodup
  below : ∀ row ∈ desk.clients, row.id < desk.nextId
  underWay : ∀ tx ∈ desk.underWay, tx.Fits sha256 ∧ tx.loaded.id < desk.nextId ∧
    Dated desk.clients tx.loaded.id tx.loaded.secretVersion tx.loaded.secretHash
  grants : ∀ g ∈ desk.grants, g.claims.sub < desk.nextId ∧
    ∃ version, g.claims.ver = some version ∧
      Dated desk.clients g.claims.sub version (sha256 g.secret)

variable {sha256} {clients : List ClientRow} {desk : Desk}

/-- A row that is there dates itself. -/
theorem dated_self (hids : (clients.map (·.id)).Nodup) {row : ClientRow} (h : row ∈ clients) :
    Dated clients row.id row.secretVersion row.secretHash := by
  intro row' hmem hid
  obtain rfl := Tables.eq_of_key hids hmem h hid
  exact ⟨le_rfl, fun _ => rfl⟩

theorem Dated.append {id version : Nat} {hash : String} (h : Dated clients id version hash)
    {row : ClientRow} (hne : id ≠ row.id) : Dated (clients ++ [row]) id version hash := by
  intro row' hmem hid
  rcases List.mem_append.mp hmem with hmem | hmem
  · exact h row' hmem hid
  · rw [List.mem_singleton.mp hmem] at hid
    exact absurd hid.symm hne

/-- A commit that is in step leaves what was dated dated: it keeps version and
secret, or it moves the version past every earlier one. -/
theorem Dated.commit {id version : Nat} {hash : String} (h : Dated clients id version hash)
    {tx : Transaction} (hfits : tx.Fits sha256)
    (hstep : tx.changed.secretVersion ≠ tx.loaded.secretVersion →
      ∀ row ∈ clients, row.id = tx.loaded.id → row.secretVersion = tx.loaded.secretVersion) :
    Dated (tx.commit clients) id version hash := by
  intro row' hmem hid
  obtain ⟨row, hrow, rfl⟩ := List.mem_map.mp hmem
  by_cases hown : row.id = tx.loaded.id
  · rw [if_pos hown] at hid ⊢
    obtain ⟨hle, hsame⟩ := h row hrow hid
    rcases hfits.credentials with ⟨hversion, hhash⟩ | ⟨hnext, -⟩
    · simp only [ClientRow.write, hversion, hhash, if_true]
      exact ⟨hle, hsame⟩
    · have hne : tx.changed.secretVersion ≠ tx.loaded.secretVersion := by omega
      have hcurrent := hstep hne row hrow hown
      have hwritten : (row.write tx.loaded tx.changed).secretVersion = row.secretVersion + 1 := by
        simp only [ClientRow.write, if_neg hne]
        omega
      rw [hwritten]
      exact ⟨by omega, fun heq => by omega⟩
  · rw [if_neg hown] at hid ⊢
    exact h row hrow hid

@[simp] theorem commit_ids (tx : Transaction) :
    (tx.commit clients).map (·.id) = clients.map (·.id) :=
  Tables.update_keys fun _ hid => hid

/-- A client that is created is new. -/
theorem create_eq_ok {data : ApiClientCreate} {credentials : String × String} {nextId userId : Nat}
    {clients' : List ClientRow}
    (h : (ClientEdit.create data credentials).apply sha256 clients nextId userId = .ok clients') :
    ∃ row : ClientRow, row.id = nextId ∧ clients' = clients ++ [row] := by
  simp only [ClientEdit.apply] at h
  obtain ⟨scopes, -, h⟩ := bind_eq_ok.mp h
  obtain ⟨row, hcreate, h⟩ := bind_eq_ok.mp h
  cases h
  obtain ⟨_, -, hrow⟩ := bind_eq_ok.mp hcreate
  cases hrow
  exact ⟨_, rfl, rfl⟩

/-- Everything that happens in step keeps the desk in order. -/
theorem step_ok (h : desk.Ok sha256) (e : Happening) (hstep : InStep desk e) :
    (desk.step sha256 e).Ok sha256 := by
  cases e with
  | create data credentials createdBy =>
    simp only [Desk.step]
    split
    · exact h
    split
    · rename_i clients' happly
      obtain ⟨row, hid, rfl⟩ := create_eq_ok happly
      have hnew : ∀ id < desk.nextId, id ≠ row.id := fun id hlt heq => by omega
      refine ⟨?_, ?_, ?_, ?_⟩
      · exact Tables.nodup_concat h.ids fun old hold => hnew _ (h.below old hold)
      · intro row' hmem
        rcases List.mem_append.mp hmem with hmem | hmem
        · exact (h.below row' hmem).trans (Nat.lt_succ_self _)
        · rw [List.mem_singleton.mp hmem, hid]
          exact Nat.lt_succ_self _
      · intro tx htx
        obtain ⟨hfits, hbelow, hdated⟩ := h.underWay tx htx
        exact ⟨hfits, hbelow.trans (Nat.lt_succ_self _), hdated.append (hnew _ hbelow)⟩
      · intro g hg
        obtain ⟨hbelow, version, hver, hdated⟩ := h.grants g hg
        exact ⟨hbelow.trans (Nat.lt_succ_self _), version, hver, hdated.append (hnew _ hbelow)⟩
    · exact h
  | load order now =>
    simp only [Desk.step]
    split
    · rename_i tx hload
      obtain ⟨hmem, hfits⟩ := load_fits hload
      refine ⟨h.ids, h.below, fun tx' htx' => ?_, h.grants⟩
      rcases List.mem_append.mp htx' with htx' | htx'
      · exact h.underWay tx' htx'
      · rw [List.mem_singleton.mp htx']
        exact ⟨hfits, h.below _ hmem, dated_self h.ids hmem⟩
    · exact h
  | commit i =>
    simp only [Desk.step]
    split
    · rename_i tx htx
      obtain ⟨hfits, hbelow, hdated⟩ := h.underWay tx (List.mem_of_getElem? htx)
      have hrest : ∀ tx' ∈ desk.underWay.eraseIdx i, tx' ∈ desk.underWay := fun tx' hmem =>
        List.mem_of_mem_eraseIdx hmem
      split
      · exact ⟨h.ids, h.below, fun tx' htx' => h.underWay tx' (hrest tx' htx'), h.grants⟩
      have hin := hstep tx htx
      refine ⟨by rw [commit_ids]; exact h.ids, ?_, ?_, ?_⟩
      · intro row hrow
        have hid : row.id ∈ desk.clients.map (·.id) := by
          rw [← commit_ids tx]
          exact List.mem_map_of_mem hrow
        obtain ⟨old, hold, heq⟩ := List.mem_map.mp hid
        rw [← heq]
        exact h.below old hold
      · intro tx' htx'
        obtain ⟨hfits', hbelow', hdated'⟩ := h.underWay tx' (hrest tx' htx')
        exact ⟨hfits', hbelow', hdated'.commit hfits hin⟩
      · intro g hg
        rcases List.mem_append.mp hg with hg | hg
        · obtain ⟨hbelow', version, hver, hdated'⟩ := h.grants g hg
          exact ⟨hbelow', version, hver, hdated'.commit hfits hin⟩
        · -- The token of an exchange goes out: it is as old as the row that was loaded.
          obtain ⟨hsub, hver, hsecret⟩ := hfits.grant g (Option.mem_toList.mp hg)
          rw [hsub]
          refine ⟨hbelow, _, hver, ?_⟩
          rw [hsecret]
          exact hdated.commit hfits hin
    · exact h
  | drop i =>
    exact ⟨h.ids, h.below,
      fun tx htx => h.underWay tx (List.mem_of_mem_eraseIdx htx), h.grants⟩
  | call i required => exact h

/-! ## Calls -/

/-- Whatever else went on, a call that is let through finds its client
active and the scopes still granted. -/
theorem call_active_and_scoped {required : List String} {claims : ClientClaims} {client : ClientRow}
    (h : getCurrentClient clients required (.token claims) = .ok client) :
    client ∈ clients ∧ client.isActive = true ∧ ∀ scope ∈ required, scope ∈ client.scopes := by
  obtain ⟨_, heq, hadmits⟩ := getCurrentClient_eq_ok h
  exact ⟨(findClient_mem hadmits.found).1, hadmits.active, fun scope hscope =>
    (hadmits.scopes scope hscope).2⟩

/-- On a desk in order, a call that is let through is made with the secret
its client has now. -/
theorem Desk.Ok.honest (h : desk.Ok sha256) (e : Happening) : CallHonest sha256 desk e := by
  cases e with
  | call i required =>
    intro grant hgrant client hok
    obtain ⟨claims, hclaims, hadmits⟩ := getCurrentClient_eq_ok hok
    cases hclaims
    obtain ⟨hmem, hactive, hscopes⟩ := call_active_and_scoped hok
    obtain ⟨-, version, hver, hdated⟩ := h.grants grant (List.mem_of_getElem? hgrant)
    have hid := (findClient_mem hadmits.found).2
    have hcurrent : version = client.secretVersion := by
      have hboth := hver.symm.trans hadmits.current
      cases hboth
      rfl
    exact ⟨hmem, (hdated client hmem hid).2 hcurrent, hactive, hscopes⟩
  | create => trivial
  | load => trivial
  | commit => trivial
  | drop => trivial

/-- On a desk in order, a rotation that commits in step takes. -/
theorem Desk.Ok.takes (h : desk.Ok sha256) (e : Happening) (hstep : InStep desk e) :
    RotationTakes sha256 desk e := by
  cases e with
  | commit i =>
    intro tx htx hmoved row' hrow' hid
    obtain ⟨hfits, -, hdated⟩ := h.underWay tx (List.mem_of_getElem? htx)
    obtain ⟨hkept, -⟩ | ⟨-, hname⟩ := hfits.credentials
    · exact absurd hkept hmoved
    have hfree : ¬ nameTaken desk.clients tx = true := by simp [nameTaken, hname]
    simp only [Desk.step, htx, if_neg hfree] at hrow'
    obtain ⟨row, hrow, rfl⟩ := List.mem_map.mp hrow'
    by_cases hown : row.id = tx.loaded.id
    · rw [if_pos hown]
      have hcurrent := hstep tx htx hmoved row hrow hown
      have hhash := (hdated row hrow hown).2 hcurrent.symm
      simp only [ClientRow.write]
      split
      · rename_i hsame
        rw [← hhash, hsame]
      · rfl
    · rw [if_neg hown] at hid
      exact absurd hid hown
  | create => trivial
  | load => trivial
  | drop => trivial
  | call => trivial

/-- The clients there are at first: nothing is under way, and no token is out. -/
structure Desk.Start (desk : Desk) : Prop where
  ids : (desk.clients.map (·.id)).Nodup
  below : ∀ row ∈ desk.clients, row.id < desk.nextId
  idle : desk.underWay = []
  unissued : desk.grants = []

theorem Desk.Start.ok (h : desk.Start) : desk.Ok sha256 where
  ids := h.ids
  below := h.below
  underWay tx htx := by
    rw [h.idle] at htx
    cases htx
  grants g hg := by
    rw [h.unissued] at hg
    cases hg

/-- However rotations, updates, exchanges and calls interleave: if every
rotation commits onto the version it loaded, then its secret is the current
one from its commit on, and each call that is let through carries a token
minted from the current secret of an active client, which holds the scopes. -/
theorem calls_honest_of_inStep (sha256 : String → String) {desk : Desk} (hstart : desk.Start)
    (es : List Happening) (h : Runs.Along (Desk.step sha256) InStep desk es) :
    Runs.Along (Desk.step sha256) (RotationTakes sha256) desk es ∧
      Runs.Along (Desk.step sha256) (CallHonest sha256) desk es := by
  have hinv : ∀ (d : Desk) (e : Happening), d.Ok sha256 → InStep d e → (d.step sha256 e).Ok sha256 :=
    fun _ e hok hin => step_ok hok e hin
  constructor
  · exact Runs.along_of_invariant hinv (fun _ e hok hin => hok.takes e hin) hstart.ok h
  · exact Runs.along_of_invariant hinv (fun _ e hok _ => hok.honest e) hstart.ok h

/-! ## Two rotations at once -/

/-- A digest for the examples. -/
def digest (secret : String) : String := "sha256:" ++ secret

/-- One integration that may read requests. -/
def oneClient : Desk where
  clients :=
    [{ id := 1, name := "Portal", clientId := "royd_1", secretHash := digest "S0"
       scopes := [ApiClient.requestsRead] }]
  nextId := 2

theorem oneClient_start : oneClient.Start :=
  ⟨by decide, by decide, rfl, rfl⟩

/-- The exchange of a secret of this client. -/
def exchangeOf (secret : String) : Order :=
  .exchange { grantType := some "client_credentials", clientId := some "royd_1",
              clientSecret := some secret }

/-- Two rotations one after the other, with an exchange after each, and a
call with each of the tokens. -/
def rotatedTwice : List Happening :=
  [.load (.rotate 1 "S1") 0, .commit 0, .load (exchangeOf "S1") 1, .commit 0,
    .load (.rotate 1 "S2") 2, .commit 0, .load (exchangeOf "S2") 3, .commit 0,
    .call 0 [ApiClient.requestsRead], .call 1 [ApiClient.requestsRead]]

theorem calls_honest_rotatedTwice :
    Runs.Along (Desk.step digest) (RotationTakes digest) oneClient rotatedTwice ∧
      Runs.Along (Desk.step digest) (CallHonest digest) oneClient rotatedTwice :=
  calls_honest_of_inStep digest oneClient_start rotatedTwice (by decide +kernel)

/-- Both rotations load version 1. The first secret is exchanged for a token
before the second rotation commits, and the token is still accepted after. -/
def rotatedAtOnce : List Happening :=
  [.load (.rotate 1 "S1") 0, .load (.rotate 1 "S2") 0, .commit 0, .load (exchangeOf "S1") 1,
    .commit 1, .commit 0, .call 0 [ApiClient.requestsRead]]

/-- The token of the secret that was rotated out is let through. -/
theorem rotatedAtOnce_lost_update :
    oneClient.Start ∧
      ¬ Runs.Along (Desk.step digest) (CallHonest digest) oneClient rotatedAtOnce := by
  refine ⟨oneClient_start, fun h => ?_⟩
  have hsplit : rotatedAtOnce = rotatedAtOnce.take 6 ++ [.call 0 [ApiClient.requestsRead]] := rfl
  rw [hsplit] at h
  have hcall := h.at
  let after := Runs.run (Desk.step digest) oneClient (rotatedAtOnce.take 6)
  have hgrant : after.grants[0]?.any fun grant => grant.secret = "S1" ∧
      (getCurrentClient after.clients [ApiClient.requestsRead]
        (.token grant.claims)).toOption.any (·.secretHash = digest "S2") := by decide +kernel
  obtain ⟨grant, hmem, hgrant⟩ := (Option.any_eq_true _ _).mp hgrant
  simp only [decide_eq_true_eq] at hgrant
  obtain ⟨hsecret, hok⟩ := hgrant
  obtain ⟨client, hclient, hhash⟩ := (Option.any_eq_true _ _).mp hok
  have hsame := (hcall grant hmem client (toOption_eq_some.mp hclient)).2.1
  rw [hsecret, of_decide_eq_true hhash] at hsame
  exact absurd hsame (by decide)

end Rotations

end Royd

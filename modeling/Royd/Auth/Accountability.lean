/-
Royd.Auth.Accountability — the sign-in and the office, put together.

A step of the office that writes a user's name is let through by a call that
`get_current_user` has answered with that user (`App.admits`). Calls of every
kind interleave with the steps of the office over one users table. What the
call was shown (`authenticated_shows`) leads back to a sign-in by Provenance,
what the step writes is signed by the caller by Lifecycle.Signatures; so every
name on a request is that of somebody who has signed in
(`names_are_accounted_for`).
-/
import Royd.Auth.Provenance
import Royd.Lifecycle.Signatures

namespace Royd.Auth

open ExpiringStore Programs Runs

variable {prims : Primitives} {cfg : Settings}

/-! ## The application -/

/-- Calls under way and the tables. Both see the same users. -/
structure App where
  auth : World
  db : Db

/-- What happens next: a message of the authentication, or a step of the
office for the call `i`. -/
inductive Traffic where
  | auth (msg : Message)
  | office (i : Nat) (e : Api.Event)
  deriving DecidableEq, Repr

/-- `get_current_user` has answered this call with the user `userId`. -/
def answeredWith (th : Running) (userId : Nat) : Bool :=
  match th.req, th.prog with
  | .authenticated _, .pure (.user u) => u.id == userId
  | _, _ => false

/-- The call `i` lets the step through. -/
def App.admits (app : App) (i : Nat) (s : Api.Step) : Bool :=
  match s.signer? with
  | none => true
  | some userId => app.auth.calls[i]?.any fun th => answeredWith th userId

/-- One step of the application. -/
def App.step (prims : Primitives) (cfg : Settings) (app : App) : Traffic → App
  | .auth msg =>
    let auth := exchange prims cfg app.auth msg
    { auth, db := { app.db with users := auth.server.users } }
  | .office i e =>
    if app.admits i e.step then
      let db := Api.step cfg app.db e
      { auth := exchange prims cfg app.auth (.writeUsers db.users), db }
    else app

/-! ## What the call was shown -/

/-- The user a call is answered with is the subject of an access token that
decoded. -/
def Identified (call : AuthCall) (q : Exchanged) (a : Answer) : Prop :=
  ∀ token u, call = .authenticated token → a = .user u →
    ∃ t ∈ token, Decoded t q ∧ t.type = .access ∧ t.sub = u.id

theorem authenticated_shows (prims : Primitives) (cfg : Settings) (call : AuthCall) :
    Shows prims call [] (handle prims cfg call) (Identified call) := by
  by_cases hauth : ∃ token, call = .authenticated token
  · obtain ⟨token, rfl⟩ := hauth
    change Shows prims _ [] (authenticated cfg token) _
    unfold authenticated
    refine shows_getCurrentUser.bind fun q user _ huser => records_pure ?_
    rintro _ _ ⟨⟩ ⟨⟩
    exact huser
  · exact (handle_records prims cfg call).mono fun _ _ _ _ token _ hcall =>
      absurd ⟨token, hcall⟩ hauth

/-- Every call is answered as it should be. -/
def World.Identifies (prims : Primitives) (w : World) : Prop :=
  ∀ th ∈ w.calls,
    Thread.Obeys (m := recorder (May prims th.req) Ledger.Possible) (Identified th.req) [] th

theorem World.Identifies.exchange {w : World} (h : w.Identifies prims) (msg : Message) :
    (exchange prims cfg w msg).Identifies prims := by
  cases msg with
  | start call =>
    intro th hth
    rcases List.mem_append.mp hth with hth | hth
    · exact h th hth
    · rw [List.mem_singleton.mp hth]
      exact Thread.obeys_start (Obeys.mono (authenticated_shows prims cfg call) fun _ _ hq => hq.2)
  | step i =>
    rcases exchange_step prims cfg w i with heq | ⟨th, c, k, hth, hprog, heq⟩
    · rw [heq]
      exact h
    · rw [heq]
      intro th' hth'
      rcases List.mem_or_eq_of_mem_set hth' with hold | rfl
      · exact h th' hold
      · exact (Thread.Obeys.call (h th (List.mem_of_getElem? hth)) hprog).2 _
          (possible_exec c w.server)
  | drop i =>
    intro th' hth'
    obtain ⟨j, hj⟩ := List.mem_iff_getElem?.mp hth'
    have hafter : (Auth.exchange prims cfg w (.drop i)).calls[j]? = some th' := hj
    rcases call_drop hafter with hold | ⟨th, hold, rfl⟩
    · exact h th' (List.mem_of_getElem? hold)
    · trivial
  | wait seconds => exact h
  | writeUsers users => exact h

/-- Whoever a call is answered with has signed in. -/
theorem World.Identifies.signedIn {w : World} (h : w.Identifies prims) (hearned : w.Earned prims)
    {th : Running} (hth : th ∈ w.calls) {userId : Nat} (hanswered : answeredWith th userId = true) :
    SignedIn prims w.calls userId := by
  unfold answeredWith at hanswered
  split at hanswered
  · rename_i token u hreq hprog
    have hobeys := h th hth
    unfold Thread.Obeys at hobeys
    rw [hprog, after_recorder] at hobeys
    obtain ⟨t, -, hdecoded, htype, hsub⟩ := hobeys token u hreq rfl
    have hbacked := hearned.backed t (hearned.decoded th hth t hdecoded)
    unfold Backed at hbacked
    rw [if_neg (by rw [htype]; decide), hsub, beq_iff_eq.mp hanswered] at hbacked
    exact hbacked
  · cases hanswered

/-! ## Every run -/

/-- What every step of the application keeps. -/
structure App.Accountable (prims : Primitives) (app : App) : Prop where
  wf : app.db.Wf
  earned : app.auth.Earned prims
  identifies : app.auth.Identifies prims
  vouched : app.db.Vouched (SignedIn prims app.auth.calls)

theorem App.Accountable.step {app : App} (h : app.Accountable prims) (x : Traffic) :
    (app.step prims cfg x).Accountable prims := by
  cases x with
  | auth msg =>
    let db := app.db
    let people : Api.Event := ⟨0, .people (exchange prims cfg app.auth msg).server.users
      db.departments db.faculties db.studentGroups⟩
    have hvouched := step_vouched cfg h.wf h.vouched people nofun
    exact ⟨(step_life cfg h.wf people).1, h.earned.exchange msg, h.identifies.exchange msg,
      hvouched.mono fun u hu => hu.mono (goneOn_exchange app.auth msg)⟩
  | office i e =>
    unfold App.step
    dsimp only
    split
    · rename_i hadmits
      have hsigner : ∀ u, e.step.signer? = some u → SignedIn prims app.auth.calls u := by
        intro u hu
        unfold App.admits at hadmits
        rw [hu] at hadmits
        obtain ⟨th, hth, hanswered⟩ := Option.any_eq_true _ _ |>.mp hadmits
        exact h.identifies.signedIn h.earned (List.mem_of_getElem? hth) hanswered
      let users : Message := .writeUsers (Api.step cfg app.db e).users
      have hearned : (exchange prims cfg app.auth users).Earned prims := h.earned.exchange users
      have hidentifies : (exchange prims cfg app.auth users).Identifies prims :=
        h.identifies.exchange users
      exact ⟨(step_life cfg h.wf e).1, hearned, hidentifies,
        step_vouched cfg h.wf h.vouched e hsigner⟩
    · exact h

/-- The office has no request and no file yet, and nobody is signed in. -/
theorem start_accountable {db : Db} (h : Start db) (hservices : db.autoReplyFiles = []) {s : Server}
    (hs : s.issued = []) : App.Accountable prims ⟨{ server := s }, db⟩ where
  wf := h.wf
  earned := ⟨by simp, by simp, fun t ht => by rw [hs] at ht; cases ht⟩
  identifies := by simp [World.Identifies]
  vouched := by
    refine ⟨fun u id hsigns => ?_, fun f hf => ?_⟩
    · cases hsigns with
      | filed row _ => rw [h.requests] at row; cases row
      | answered row _ => rw [h.requests] at row; cases row
      | moved row _ => rw [h.history] at row; cases row
      | said row => rw [h.messages] at row; cases row
      | attached row => rw [h.files] at row; cases row
    · rw [hservices] at hf
      cases hf

/-- Every name on a request is accounted for. However the calls of any number
of clients interleave with the steps of the office, whoever is named as having
filed a request, moved it, written, attached a file or answered has signed in,
with the password and, where the row asked for one, a code, unless an
integration filed the request for that student; and so has whoever gave a
service a file. -/
theorem names_are_accounted_for (prims : Primitives) (cfg : Settings) {db₀ : Db} (h : Start db₀)
    (hservices : db₀.autoReplyFiles = []) (s : Server) (hs : s.issued = []) (xs : List Traffic) :
    let app := run (App.step prims cfg) ⟨{ server := s }, db₀⟩ xs
    (∀ u id, Signs app.db u id → SignedIn prims app.auth.calls u ∨ app.db.FiledFor u id) ∧
      ∀ f ∈ app.db.autoReplyFiles, SignedIn prims app.auth.calls f.uploadedBy := by
  intro app
  have hend : app.Accountable prims := run_invariant (fun _ x h => h.step x)
    (start_accountable h hservices hs) xs
  exact ⟨hend.vouched.signed, hend.vouched.services⟩

/-- The student of the office can sign in. -/
def openOffice : Db :=
  { office with
    users :=
      [{ id := 1, fullName := "Talaba", email := some "talaba@royd", passwordHash := some "parol",
         role := .student, studentProfile := some { facultyId := some 1 } },
       { id := 2, fullName := "Xodim", role := .staff }] }

/-- The access token of the student's first sign-in. -/
def studentAccess : Token :=
  { type := .access, sub := 1, jti := 1, sid := some 0, iat := 0, exp := 900 }

/-- The student signs in, and is recognised. -/
def studentSignsIn : List Message :=
  [.start (.login "talaba@royd" "parol" "10.0.0.1")] ++ goes 0 12 ++
    [.start (.authenticated (some studentAccess))] ++ goes 1 6

/-- Then the student files a request. -/
def studentFiles : List Traffic := studentSignsIn.map Traffic.auth ++ [.office 1 (filing 0)]

theorem names_are_accounted_for_office :
    let app := run (App.step plainPrimitives {}) ⟨{ server := { users := openOffice.users, now := 0 } },
      openOffice⟩ studentFiles
    app.db.requests.map (·.studentId) = [1] ∧
    (∀ u id, Signs app.db u id → SignedIn plainPrimitives app.auth.calls u ∨ app.db.FiledFor u id) ∧
      ∀ f ∈ app.db.autoReplyFiles, SignedIn plainPrimitives app.auth.calls f.uploadedBy :=
  ⟨by decide +kernel, names_are_accounted_for plainPrimitives {}
    ⟨rfl, rfl, rfl, rfl, rfl, office_start.catalogue⟩ rfl { users := openOffice.users, now := 0 } rfl
    studentFiles⟩

end Royd.Auth

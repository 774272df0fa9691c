/-
Royd.Auth.Tabs — the tabs of one browser, which share a cookie jar.

Each tab sends one refresh at a time; between its request, the server's work
and the arrival of the response, the other tabs go on. Two tabs that send the
same cookie get a new token and a 401 that clears the cookie, and if the
second arrives last the session is lost although its new token is good
(`loser_clears_cookie`).

As long as no such 401 arrives while nothing else on the way carries a good
token, the jar ends up with one (`tabs_keep_session`).
-/
import Royd.Auth.PasswordChange
import Royd.Auth.Rotation

namespace Royd.Auth

open ExpiringStore Programs Runs

variable (prims : Primitives) (cfg : Settings)

/-! ## The browser -/

/-- Where a tab is with its refresh: it carries the cookie it was sent with,
or what the response does to the jar. -/
inductive TabState where
  | idle
  | sent (cookie : Option Token)
  | answered (effect : CookieEffect)
  deriving DecidableEq, Repr

/-- The server, and a browser with its cookie jar and its tabs. -/
structure Browser where
  server : Server
  jar : Option Token
  tabs : List TabState
  deriving DecidableEq, Repr

/-- A request leaves, the server handles it, or its response arrives. -/
inductive BrowserEvent where
  | send (i : Nat)
  | handle (i : Nat)
  | deliver (i : Nat)
  | wait (seconds : Nat)
  deriving DecidableEq, Repr

/-- The browser after an event. An event that is not possible changes
nothing. -/
def Browser.next (w : Browser) : BrowserEvent → Browser
  | .send i =>
    match w.tabs[i]? with
    | some .idle => { w with tabs := w.tabs.set i (.sent w.jar) }
    | _ => w
  | .handle i =>
    match w.tabs[i]? with
    | some (.sent cookie) =>
      let r := serve prims cfg w.server (.refresh none cookie)
      { w with server := r.2, tabs := w.tabs.set i (.answered (cookieEffect r.1)) }
    | _ => w
  | .deliver i =>
    match w.tabs[i]? with
    | some (.answered effect) =>
      { w with jar := applyCookie w.jar effect, tabs := w.tabs.set i .idle }
    | _ => w
  | .wait seconds => { w with server := w.server.wait seconds }

/-! ## The claim's words -/

/-- The server accepts the refresh token. -/
def Good (s : Server) (t : Token) : Prop := Accepts prims cfg s (.refresh none (some t))

instance (s : Server) (t : Token) : Decidable (Good prims cfg s t) :=
  inferInstanceAs (Decidable (Accepts prims cfg s (.refresh none (some t))))

/-- No token lapses while time passes. -/
def NoLapse (w : Browser) : BrowserEvent → Prop
  | .wait seconds => ∀ t ∈ w.server.issued, Good prims cfg w.server t →
      Good prims cfg (w.server.wait seconds) t
  | _ => True

/-- The token a tab carries. -/
def TabState.token? : TabState → Option Token
  | .sent cookie => cookie
  | .answered (.set t) => some t
  | _ => none

/-- When a response that clears the cookie arrives at a tab, another tab
carries a good token. -/
def Relieved (w : Browser) : BrowserEvent → Prop
  | .deliver i => w.tabs[i]? = some (.answered .clear) →
      ∃ j < w.tabs.length, j ≠ i ∧ ∃ t ∈ w.tabs[j]?.bind TabState.token?, Good prims cfg w.server t
  | _ => True

/-- All responses have arrived. -/
def Browser.Idle (w : Browser) : Prop := ∀ tab ∈ w.tabs, tab = .idle

/-- The jar holds a refresh token the server accepts. -/
def Browser.SignedIn (w : Browser) : Prop := ∃ t ∈ w.jar, Good prims cfg w.server t

instance (w : Browser) (e : BrowserEvent) : Decidable (NoLapse prims cfg w e) :=
  match e with
  | .wait seconds => inferInstanceAs (Decidable (∀ t ∈ w.server.issued, Good prims cfg w.server t →
      Good prims cfg (w.server.wait seconds) t))
  | .send _ | .handle _ | .deliver _ => .isTrue trivial

instance (w : Browser) (e : BrowserEvent) : Decidable (Relieved prims cfg w e) :=
  match e with
  | .deliver i => inferInstanceAs (Decidable (w.tabs[i]? = some (.answered .clear) →
      ∃ j < w.tabs.length, j ≠ i ∧ ∃ t ∈ w.tabs[j]?.bind TabState.token?, Good prims cfg w.server t))
  | .send _ | .handle _ | .wait _ => .isTrue trivial

instance (w : Browser) : Decidable w.Idle :=
  inferInstanceAs (Decidable (∀ tab ∈ w.tabs, tab = .idle))

instance (w : Browser) : Decidable (w.SignedIn prims cfg) :=
  inferInstanceAs (Decidable (∃ t ∈ w.jar, Good prims cfg w.server t))

variable {prims cfg}

/-! ## Good tokens -/

section Good

variable {s : Server} {t : Token}

theorem good_iff (hcfg : 0 < cfg.jwtRefreshTtlDays) (hs : s.Wf) :
    Good prims cfg s t ↔ ∃ user, s.Refreshable t user := by
  constructor
  · exact refreshable_of_accepts rfl
  · rintro ⟨user, h⟩
    obtain ⟨access, new, s', hserve, -⟩ := refresh_accepted hcfg hs h
    exact ⟨.tokenPair access new, congrArg Prod.fst hserve⟩

/-- A good token is answered with a new one, which is good from then on, and
the other good tokens stay good. -/
theorem serve_good (hcfg : 0 < cfg.jwtRefreshTtlDays) (hs : s.Wf) (h : Good prims cfg s t) :
    ∃ new, cookieEffect (serve prims cfg s (.refresh none (some t))).1 = .set new ∧
      (∀ t' ∈ s.issued, t' ≠ new) ∧
      Good prims cfg (serve prims cfg s (.refresh none (some t))).2 new ∧
      ∀ t', Good prims cfg s t' → t' ≠ t →
        Good prims cfg (serve prims cfg s (.refresh none (some t))).2 t' := by
  have hwf : (serve prims cfg s (.refresh none (some t))).2.Wf :=
    Handler.keeps_wf (handle_obeys prims cfg _) hs rfl
  obtain ⟨user, hcheck⟩ := (good_iff hcfg hs).mp h
  obtain ⟨access, new, s', hserve, hfresh, hnew, hold⟩ := refresh_accepted hcfg hs hcheck
  have hserve : serve prims cfg s (.refresh none (some t)) = (.ok (.tokenPair access new), s') := hserve
  rw [hserve] at hwf ⊢
  refine ⟨new, rfl, hfresh, (good_iff hcfg hwf).mpr ⟨user, hnew⟩, fun t' h' hne => ?_⟩
  obtain ⟨user', h'⟩ := (good_iff hcfg hs).mp h'
  exact (good_iff hcfg hwf).mpr ⟨user', hold t' user' h' hne⟩

/-- Any other cookie is refused, and the good tokens stay good. -/
theorem serve_bad (hcfg : 0 < cfg.jwtRefreshTtlDays) (hs : s.Wf) {cookie : Option Token}
    (h : ∀ t ∈ cookie, ¬ Good prims cfg s t) :
    (∀ new, cookieEffect (serve prims cfg s (.refresh none cookie)).1 ≠ .set new) ∧
      ∀ t', Good prims cfg s t' → Good prims cfg (serve prims cfg s (.refresh none cookie)).2 t' := by
  cases cookie with
  | none => exact ⟨nofun, fun t' h' => h'⟩
  | some t =>
    have hwf : (serve prims cfg s (.refresh none (some t))).2.Wf :=
      Handler.keeps_wf (handle_obeys prims cfg _) hs rfl
    have hbad : ∀ user, ¬ s.Refreshable t user :=
      fun user hcheck => h t rfl ((good_iff hcfg hs).mpr ⟨user, hcheck⟩)
    obtain ⟨e, s', hserve, hold⟩ := refresh_refused cfg hs hbad
    have hserve : serve prims cfg s (.refresh none (some t)) = (.error e, s') := hserve
    rw [hserve] at hwf ⊢
    refine ⟨fun new heq => ?_, fun t' h' => ?_⟩
    · simp only [cookieEffect] at heq
      split at heq
      · cases heq
      · cases heq
    · obtain ⟨user', h'⟩ := (good_iff hcfg hs).mp h'
      exact (good_iff hcfg hwf).mpr ⟨user', hold t' user' h'⟩

end Good

/-! ## A good token is on its way -/

namespace Browser

/-- The jar holds the token, or a tab carries it. -/
def Carries (w : Browser) (t : Token) : Prop :=
  w.jar = some t ∨ ∃ (j : Nat) (tab : TabState), w.tabs[j]? = some tab ∧ tab.token? = some t

/-- The response of tab `i` sets the cookie to `t`. -/
def Sets (w : Browser) (i : Nat) (t : Token) : Prop := w.tabs[i]? = some (.answered (.set t))

/-- A good token is in the jar or on its way; and a token that is on its way
into the jar is good, and nobody else has seen it. -/
structure Live (prims : Primitives) (cfg : Settings) (w : Browser) : Prop where
  wf : w.server.Wf
  issued : ∀ t, w.Carries t → t ∈ w.server.issued
  good : ∀ i t, w.Sets i t → Good prims cfg w.server t
  notInJar : ∀ i t, w.Sets i t → w.jar ≠ some t
  alone : ∀ (i j : Nat) t (tab : TabState), w.Sets i t → j ≠ i → w.tabs[j]? = some tab →
    tab.token? ≠ some t
  live : ∃ t, w.Carries t ∧ Good prims cfg w.server t

variable {w : Browser}

theorem getElem?_set_cases {tabs : List TabState} {i j : Nat} {tab tab' : TabState}
    (h : (tabs.set i tab')[j]? = some tab) : (j = i ∧ tab = tab') ∨ (j ≠ i ∧ tabs[j]? = some tab) := by
  rw [List.getElem?_set] at h
  split at h
  · rename_i hij
    split at h
    · exact .inl ⟨hij.symm, (Option.some.inj h).symm⟩
    · cases h
  · exact .inr ⟨Ne.symm ‹_›, h⟩

/-- What another tab carries it still carries. -/
theorem carries_set {i j : Nat} {tab tab' : TabState} {jar : Option Token} {server : Server} {t : Token}
    (hj : w.tabs[j]? = some tab) (hne : j ≠ i) (ht : tab.token? = some t) :
    ({ server, jar, tabs := w.tabs.set i tab' } : Browser).Carries t :=
  .inr ⟨j, tab, by rw [List.getElem?_set_ne (Ne.symm hne)]; exact hj, ht⟩

/-- A tab moves on, but to no response that sets the cookie: what it carries
then is what was in the jar, and what is in the jar was there or has arrived
with its response. -/
theorem Live.moveOn (h : w.Live prims cfg) {server : Server} {jar : Option Token} {i : Nat}
    {tab' : TabState} (hwf : server.Wf) (hset : ∀ t, tab' ≠ .answered (.set t))
    (hissued : ∀ t ∈ w.server.issued, t ∈ server.issued)
    (hgood : ∀ t, Good prims cfg w.server t → Good prims cfg server t)
    (htoken : ∀ t, tab'.token? = some t → w.jar = some t)
    (hjar : ∀ t, jar = some t → w.jar = some t ∨ w.Sets i t)
    (hlive : ∃ t, ({ server, jar, tabs := w.tabs.set i tab' } : Browser).Carries t ∧
      Good prims cfg server t) :
    ({ server, jar, tabs := w.tabs.set i tab' } : Browser).Live prims cfg := by
  have hsets : ∀ (j : Nat) t,
      ({ server, jar, tabs := w.tabs.set i tab' } : Browser).Sets j t → j ≠ i ∧ w.Sets j t := by
    intro j t hj
    rcases getElem?_set_cases hj with ⟨-, heq⟩ | hold
    · exact absurd heq.symm (hset t)
    · exact hold
  constructor
  case wf => exact hwf
  case issued =>
    rintro t (ht | ⟨j, tab, hj, htok⟩)
    · rcases hjar t ht with ht | ht
      · exact hissued t (h.issued t (.inl ht))
      · exact hissued t (h.issued t (.inr ⟨i, _, ht, rfl⟩))
    · rcases getElem?_set_cases hj with ⟨-, rfl⟩ | ⟨-, hj⟩
      · exact hissued t (h.issued t (.inl (htoken t htok)))
      · exact hissued t (h.issued t (.inr ⟨j, tab, hj, htok⟩))
  case good => exact fun j t hj => hgood t (h.good j t (hsets j t hj).2)
  case notInJar =>
    intro j t hj ht
    obtain ⟨hne, hj⟩ := hsets j t hj
    rcases hjar t ht with ht | ht
    · exact h.notInJar j t hj ht
    · exact h.alone j i t _ hj (Ne.symm hne) ht rfl
  case alone =>
    intro j k t tab hj hk htab
    have hold : w.Sets j t := (hsets j t hj).2
    rcases getElem?_set_cases htab with ⟨-, rfl⟩ | ⟨-, htab⟩
    · exact fun htok => h.notInJar j t hold (htoken t htok)
    · exact h.alone j k t tab hold hk htab
  case live => exact hlive

/-- A tab sends its refresh with the cookie of the jar. -/
theorem Live.send (h : w.Live prims cfg) {i : Nat} (hi : w.tabs[i]? = some .idle) :
    ({ w with tabs := w.tabs.set i (.sent w.jar) } : Browser).Live prims cfg := by
  have hset : ∀ t, TabState.sent w.jar ≠ .answered (.set t) := nofun
  have htoken : ∀ t, (TabState.sent w.jar).token? = some t → w.jar = some t := fun _ ht => ht
  apply h.moveOn h.wf hset (fun _ ht => ht) (fun _ ht => ht) htoken (fun _ ht => .inl ht)
  obtain ⟨t, hjar | ⟨j, tab, hj, htok⟩, hgood⟩ := h.live
  · exact ⟨t, .inl hjar, hgood⟩
  · have hne : j ≠ i := by
      rintro rfl
      rw [hi] at hj
      cases hj
      cases htok
    exact ⟨t, carries_set hj hne htok, hgood⟩

/-- The server handles a refresh that carries a good token. -/
theorem Live.handle_good (hcfg : 0 < cfg.jwtRefreshTtlDays) (h : w.Live prims cfg) {i : Nat} {t : Token}
    (hi : w.tabs[i]? = some (.sent (some t))) (hgood : Good prims cfg w.server t) :
    (w.next prims cfg (.handle i)).Live prims cfg := by
  have hwf : (serve prims cfg w.server (.refresh none (some t))).2.Wf :=
    Handler.keeps_wf (handle_obeys prims cfg _) h.wf rfl
  have hgrows : w.server.Grows (serve prims cfg w.server (.refresh none (some t))).2 :=
    Handler.grows (p := handle prims cfg (.refresh none (some t))) rfl
  obtain ⟨new, heffect, hfresh, hnew, hold⟩ := serve_good hcfg h.wf hgood
  have hunseen : ∀ t', w.Carries t' → t' ≠ new := fun t' ht' => hfresh t' (h.issued t' ht')
  have hothers : ∀ (j : Nat) t', w.Sets j t' → t' ≠ t := by
    rintro j t' hj rfl
    have hne : i ≠ j := by
      rintro rfl
      rw [Sets, hi] at hj
      cases hj
    exact h.alone j i t' _ hj hne hi rfl
  simp only [Browser.next, hi, heffect]
  refine ⟨hwf, fun t' ht' => ?_, fun j t' hj => ?_, fun j t' hj => ?_, fun j k t' tab hj hk htab => ?_, ?_⟩
  · rcases ht' with hjar | ⟨j, tab, hj, htok⟩
    · exact hgrows.tokens t' (h.issued t' (.inl hjar))
    · rcases getElem?_set_cases hj with ⟨-, rfl⟩ | ⟨-, hj⟩
      · cases htok
        obtain ⟨user, hcheck⟩ := (good_iff hcfg hwf).mp hnew
        exact mem_of_decodes hcheck.decodes
      · exact hgrows.tokens t' (h.issued t' (.inr ⟨j, tab, hj, htok⟩))
  · rcases getElem?_set_cases hj with ⟨-, heq⟩ | ⟨-, hj⟩
    · cases heq
      exact hnew
    · exact hold t' (h.good j t' hj) (hothers j t' hj)
  · rcases getElem?_set_cases hj with ⟨-, heq⟩ | ⟨-, hj⟩
    · cases heq
      exact fun hjar => hunseen _ (.inl hjar) rfl
    · exact h.notInJar j t' hj
  · rcases getElem?_set_cases hj with ⟨rfl, heq⟩ | ⟨hji, hj⟩
    · cases heq
      rcases getElem?_set_cases htab with ⟨rfl, -⟩ | ⟨-, htab⟩
      · exact absurd rfl hk
      · exact fun htok => hunseen _ (.inr ⟨k, tab, htab, htok⟩) rfl
    · rcases getElem?_set_cases htab with ⟨-, rfl⟩ | ⟨-, htab⟩
      · rintro heq
        cases heq
        exact hunseen _ (.inr ⟨j, _, hj, rfl⟩) rfl
      · exact h.alone j k t' tab hj hk htab
  · have hlt : i < w.tabs.length := (List.getElem?_eq_some_iff.mp hi).1
    exact ⟨new, .inr ⟨i, _, List.getElem?_set_self hlt, rfl⟩, hnew⟩

/-- The server handles a refresh without a good token. -/
theorem Live.handle_bad (hcfg : 0 < cfg.jwtRefreshTtlDays) (h : w.Live prims cfg) {i : Nat}
    {cookie : Option Token} (hi : w.tabs[i]? = some (.sent cookie))
    (hbad : ∀ t ∈ cookie, ¬ Good prims cfg w.server t) : (w.next prims cfg (.handle i)).Live prims cfg := by
  have hwf : (serve prims cfg w.server (.refresh none cookie)).2.Wf :=
    Handler.keeps_wf (handle_obeys prims cfg _) h.wf rfl
  have hgrows : w.server.Grows (serve prims cfg w.server (.refresh none cookie)).2 :=
    Handler.grows (p := handle prims cfg (.refresh none cookie)) rfl
  obtain ⟨heffect, hold⟩ := serve_bad hcfg h.wf hbad
  simp only [Browser.next, hi]
  generalize cookieEffect (serve prims cfg w.server (.refresh none cookie)).1 = effect at heffect
  have hnone : (TabState.answered effect).token? = none := by
    cases effect with
    | set new => exact absurd rfl (heffect new)
    | clear => rfl
    | keep => rfl
  have hset : ∀ t, TabState.answered effect ≠ .answered (.set t) := by
    intro t heq
    cases heq
    exact heffect t rfl
  have htoken : ∀ t, (TabState.answered effect).token? = some t → w.jar = some t := by
    intro t htok
    rw [hnone] at htok
    cases htok
  apply h.moveOn hwf hset hgrows.tokens hold htoken (fun t ht => .inl ht)
  obtain ⟨t, hjar | ⟨j, tab, hj, htok⟩, hgood⟩ := h.live
  · exact ⟨t, .inl hjar, hold t hgood⟩
  · have hne : j ≠ i := by
      rintro rfl
      rw [hi] at hj
      cases hj
      exact hbad t htok hgood
    exact ⟨t, carries_set hj hne htok, hold t hgood⟩

/-- A response arrives that sets the cookie. -/
theorem Live.deliver_set (h : w.Live prims cfg) {i : Nat} {t : Token} (hi : w.Sets i t) :
    ({ w with jar := some t, tabs := w.tabs.set i .idle } : Browser).Live prims cfg := by
  have hjar : ∀ t', some t = some t' → w.jar = some t' ∨ w.Sets i t' := by
    rintro t' heq
    cases heq
    exact .inr hi
  exact h.moveOn h.wf nofun (fun _ ht => ht) (fun _ ht => ht) nofun hjar
    ⟨t, .inl rfl, h.good i t hi⟩

/-- A response arrives that sets no cookie, and a good token is elsewhere. -/
theorem Live.deliver_other (h : w.Live prims cfg) {i : Nat} {jar : Option Token}
    (hjar : ∀ t, jar = some t → w.jar = some t)
    (hlive : ∃ t, ({ w with jar, tabs := w.tabs.set i .idle } : Browser).Carries t ∧
      Good prims cfg w.server t) :
    ({ w with jar, tabs := w.tabs.set i .idle } : Browser).Live prims cfg :=
  h.moveOn h.wf nofun (fun _ ht => ht) (fun _ ht => ht) nofun (fun t ht => .inl (hjar t ht)) hlive

/-- Time passes, and nothing lapses. -/
theorem Live.wait (h : w.Live prims cfg) {seconds : Nat}
    (hlapse : ∀ t ∈ w.server.issued, Good prims cfg w.server t →
      Good prims cfg (w.server.wait seconds) t) :
    ({ w with server := w.server.wait seconds } : Browser).Live prims cfg := by
  refine ⟨⟨h.wf.jti_lt, h.wf.sid_lt, h.wf.jti_inj, h.wf.key_lt⟩, h.issued, fun i t hi => ?_, h.notInJar,
    h.alone, ?_⟩
  · exact hlapse t (h.issued t (.inr ⟨i, _, hi, rfl⟩)) (h.good i t hi)
  · obtain ⟨t, hcarries, hgood⟩ := h.live
    exact ⟨t, hcarries, hlapse t (h.issued t hcarries) hgood⟩

/-- Every event keeps a good token on its way, unless time lets it lapse or
the only one left is cleared. -/
theorem Live.next (hcfg : 0 < cfg.jwtRefreshTtlDays) (h : w.Live prims cfg) (e : BrowserEvent)
    (hlapse : NoLapse prims cfg w e) (hrelieved : Relieved prims cfg w e) :
    (w.next prims cfg e).Live prims cfg := by
  cases e with
  | send i =>
    simp only [Browser.next]
    split
    · exact h.send ‹_›
    · exact h
  | handle i =>
    cases hi : w.tabs[i]? with
    | none => simpa only [Browser.next, hi] using h
    | some tab =>
      cases tab with
      | sent cookie =>
        by_cases hbad : ∀ t ∈ cookie, ¬ Good prims cfg w.server t
        · exact h.handle_bad hcfg hi hbad
        · simp only [not_forall, not_not] at hbad
          obtain ⟨t, ht, hgood⟩ := hbad
          cases ht
          exact h.handle_good hcfg hi hgood
      | idle => simpa only [Browser.next, hi] using h
      | answered effect => simpa only [Browser.next, hi] using h
  | deliver i =>
    cases hi : w.tabs[i]? with
    | none => simpa only [Browser.next, hi] using h
    | some tab =>
      cases tab with
      | idle => simpa only [Browser.next, hi] using h
      | sent cookie => simpa only [Browser.next, hi] using h
      | answered effect =>
        simp only [Browser.next, hi]
        cases effect with
        | set t => exact h.deliver_set hi
        | clear =>
          obtain ⟨j, -, hne, t, htok, hgood⟩ := hrelieved hi
          obtain ⟨tab, hj, htok⟩ := Option.bind_eq_some_iff.mp htok
          exact h.deliver_other (fun _ heq => by cases heq) ⟨t, carries_set hj hne htok, hgood⟩
        | keep =>
          refine h.deliver_other (fun _ heq => heq) ?_
          obtain ⟨t, hjar | ⟨j, tab, hj, htok⟩, hgood⟩ := h.live
          · exact ⟨t, .inl hjar, hgood⟩
          · have hne : j ≠ i := by
              rintro rfl
              rw [hi] at hj
              cases hj
              cases htok
            exact ⟨t, carries_set hj hne htok, hgood⟩
  | wait seconds => exact h.wait hlapse

/-- Once all responses have arrived, the good token is in the jar. -/
theorem Live.signedIn (h : w.Live prims cfg) (hidle : w.Idle) : w.SignedIn prims cfg := by
  obtain ⟨t, hjar | ⟨j, tab, hj, htok⟩, hgood⟩ := h.live
  · exact ⟨t, hjar, hgood⟩
  · rw [hidle tab (List.mem_of_getElem? hj)] at htok
    cases htok

/-- A browser that is signed in, before any tab has sent a refresh. -/
theorem live_start (hcfg : 0 < cfg.jwtRefreshTtlDays) (hw : w.server.Wf) (hidle : w.Idle)
    (hin : w.SignedIn prims cfg) : w.Live prims cfg := by
  have hnone : ∀ (i : Nat) tab, w.tabs[i]? = some tab → tab = .idle :=
    fun i tab hi => hidle tab (List.mem_of_getElem? hi)
  have hsets : ∀ i t, ¬ w.Sets i t := fun i t hi => by cases hnone i _ hi
  obtain ⟨t, hjar, hgood⟩ := hin
  refine ⟨hw, fun t' ht' => ?_, fun i t' hi => absurd hi (hsets i t'), fun i t' hi => absurd hi (hsets i t'),
    fun i j t' tab hi _ _ => absurd hi (hsets i t'), ⟨t, .inl hjar, hgood⟩⟩
  rcases ht' with hjar' | ⟨j, tab, hj, htok⟩
  · cases hjar.symm.trans hjar'
    obtain ⟨user, hcheck⟩ := (good_iff hcfg hw).mp hgood
    exact mem_of_decodes hcheck.decodes
  · rw [hnone j tab hj] at htok
    cases htok

end Browser

/-- From a browser that is signed in, with any number of tabs: as long as no
response that clears the cookie arrives while no other tab carries a good
token, the browser is signed in once all responses have arrived. -/
theorem tabs_keep_session (prims : Primitives) (cfg : Settings) (hcfg : 0 < cfg.jwtRefreshTtlDays)
    (w : Browser) (hw : w.server.Wf) (hidle : w.Idle) (hin : w.SignedIn prims cfg)
    (es : List BrowserEvent) (hlapse : Along (Browser.next prims cfg) (NoLapse prims cfg) w es)
    (hrelieved : Along (Browser.next prims cfg) (Relieved prims cfg) w es)
    (hend : (run (Browser.next prims cfg) w es).Idle) :
    (run (Browser.next prims cfg) w es).SignedIn prims cfg := by
  have hlive := run_invariant_along (I := Browser.Live prims cfg)
    (C := fun w e => NoLapse prims cfg w e ∧ Relieved prims cfg w e)
    (fun _ e h hcond => h.next hcfg e hcond.1 hcond.2) (Browser.live_start hcfg hw hidle hin)
    (along_and hlapse hrelieved)
  exact hlive.signedIn hend

/-- The registrator's browser with two tabs. -/
def deskBrowser : Browser where
  server := (serve plainPrimitives {} frontDesk deskLogin).2
  jar := some deskRefresh
  tabs := [.idle, .idle]

/-- Both tabs are reloaded at once, and the refusal arrives first. -/
theorem tabs_keep_session_desk :
    (run (Browser.next plainPrimitives {}) deskBrowser
      [.send 0, .send 1, .handle 0, .handle 1, .deliver 1, .deliver 0]).SignedIn plainPrimitives {} :=
  tabs_keep_session plainPrimitives {} (by decide) deskBrowser
    (Handler.keeps_wf (handle_obeys plainPrimitives {} deskLogin) frontDesk_wf rfl) (by decide +kernel)
    (by decide +kernel) [.send 0, .send 1, .handle 0, .handle 1, .deliver 1, .deliver 0]
    (by decide +kernel) (by decide +kernel) (by decide +kernel)

/-- Both tabs are reloaded at once, and the refusal arrives last: all
responses have arrived, and the jar is empty. -/
theorem loser_clears_cookie :
    deskBrowser.SignedIn plainPrimitives {} ∧
      (run (Browser.next plainPrimitives {}) deskBrowser
        [.send 0, .send 1, .handle 0, .handle 1, .deliver 0, .deliver 1]).Idle ∧
      ¬ (run (Browser.next plainPrimitives {}) deskBrowser
        [.send 0, .send 1, .handle 0, .handle 1, .deliver 0, .deliver 1]).SignedIn plainPrimitives {} := by
  decide +kernel

end Royd.Auth

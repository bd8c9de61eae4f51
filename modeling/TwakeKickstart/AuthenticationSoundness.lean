import TwakeKickstart.TomServer.Authenticate
import TwakeKickstart.FederatedIdentityService.Auth

namespace TwakeKickstart

open Library Utils IdentityServer

/-! Soundness of the three authenticators, over every request and every
content of the token tables. -/

def Refused (observation : Observation) : Prop :=
  observation.1 = [] ∧ observation.2.map Prod.fst = [401]

def MissingOrEmpty (token : JsValue) : Prop :=
  token.isNullish = true ∨ token.text? = some ""

/-- The callback is run only with vouched content; nobody vouched for, or no
token, means 401. -/
structure Sound (vouched : JsValue → Prop) (token : JsValue)
    (observation : Observation) : Prop where
  onlyVouched : ∀ entry ∈ observation.1, vouched entry.1
  otherwiseRefused : (∀ data, ¬ vouched data) → Refused observation
  emptyRefused : MissingOrEmpty token → Refused observation

/-- The federated service is taken without its bypass for trusted addresses;
the address of the caller may fail to parse. -/
inductive Authenticator where
  | identityServer (requiresTerms : Bool)
  | tomServer
  | federated (addressParsed : Bool)

namespace Authenticator

def procedure (env : Environment) (conf : Config) :
    Authenticator → Request → Procedure
  | identityServer requiresTerms, req =>
      IdentityServer.Authenticate recordCallback requiresTerms req
  | tomServer, req => TomServer.Authenticate env conf recordCallback req
  | federated addressParsed, req =>
      FederatedIdentityService.Authenticate
        (if addressParsed then some false else none) recordCallback req

def attempt (env : Environment) (conf : Config) (now : Nat)
    (authenticator : Authenticator) (req : Request) (store : Store) :
    Observation :=
  observed (serve env now (authenticator.procedure env conf req) { store })

/-- The content names a user for whom the presented token speaks. -/
def Vouched (env : Environment) (conf : Config) (now : Nat) (store : Store)
    (token : JsValue) : Authenticator → JsValue → Prop
  | identityServer _, data => NamedByRow (store .accessTokens) token data
  | federated _, data => NamedByRow (store .accessTokens) token data
  | tomServer, data =>
      NamedByRow (store .matrixTokens) token data ∨
      NamedByRow (store .accessTokens) token data ∨
      ∃ text uid, token.text? = some text ∧
        TomServer.whoami env conf text = some uid ∧ uid.isNullish = false ∧
        data = tokenContent uid now

/-- What keeps an empty token out: the rows that it selects are unreadable, and
the homeserver names nobody for it. -/
def RefusesEmpty (env : Environment) (conf : Config) (store : Store) :
    Authenticator → Prop
  | identityServer requiresTerms =>
      headUnreadable (store .accessTokens) requiresTerms
  | federated addressParsed =>
      addressParsed = true → headUnreadable (store .accessTokens) false
  | tomServer =>
      headUnreadable (store .matrixTokens) false ∧
      ∀ uid, TomServer.whoami env conf "" = some uid →
        uid.isNullish = true ∧ headUnreadable (store .accessTokens) true

/-- Only the tom-server converts a token to text outside of a statement. -/
def Converts (token : JsValue) : Authenticator → Prop
  | tomServer => token.isNullish = false → token.text? ≠ none
  | _ => True

end Authenticator

theorem sound_of_refused {vouched : JsValue → Prop} {token : JsValue}
    {observation : Observation} (h : Refused observation) :
    Sound vouched token observation where
  onlyVouched := by
    rw [h.1]
    intro entry hentry
    cases hentry
  otherwiseRefused := fun _ => h
  emptyRefused := fun _ => h

section Settle

variable {env : Environment} {now : Nat} {world : World} {token : JsValue}
variable {vouched : JsValue → Prop}
variable {decision : Except (Nat × ErrCode) JsValue}

theorem refused_settle_iff (fresh : observed world = ([], [])) :
    Refused (observed (settle env now decision token recordCallback world)) ↔
      ∃ code, decision = .error (401, code) := by
  obtain ⟨hgranted, hsent⟩ := Prod.mk.inj fresh
  cases decision with
  | error refusal =>
      obtain ⟨status, code⟩ := refusal
      simp [Refused, observed, settle, hgranted, hsent]
  | ok data =>
      simp [Refused, observed, settle, recordCallback, hgranted, hsent]

theorem granted_settle (fresh : observed world = ([], []))
    {entry : JsValue × JsValue}
    (h : entry ∈ (observed
      (settle env now decision token recordCallback world)).1) :
    decision = .ok entry.1 := by
  obtain ⟨hgranted, hsent⟩ := Prod.mk.inj fresh
  cases decision with
  | error refusal => simp [observed, settle, hgranted] at h
  | ok data =>
      simp only [observed, settle, recordCallback, serve_callback, serve_done,
        hgranted, List.nil_append, List.mem_singleton] at h
      rw [h]

/-- A decision on a token that is present and not empty is sound when it
admits only vouched content and its other refusals concern vouched users. -/
theorem sound_settle (fresh : observed world = ([], []))
    (admitted : ∀ data, decision = .ok data → vouched data)
    (refused : ∀ status code, decision = .error (status, code) →
      status = 401 ∨ ∃ data, vouched data)
    (missing : MissingOrEmpty token → ∃ code, decision = .error (401, code)) :
    Sound vouched token
      (observed (settle env now decision token recordCallback world)) where
  onlyVouched := by
    intro entry hentry
    exact admitted entry.1 (granted_settle fresh hentry)
  otherwiseRefused := by
    intro hnobody
    apply (refused_settle_iff fresh).mpr
    cases hdecision : decision with
    | error refusal =>
        obtain ⟨status, code⟩ := refusal
        rcases refused status code hdecision with hstatus | ⟨data, hdata⟩
        · exact ⟨code, by rw [hstatus]⟩
        · exact absurd hdata (hnobody data)
    | ok data => exact absurd (admitted data hdecision) (hnobody data)
  emptyRefused := fun hmissing =>
    (refused_settle_iff fresh).mpr (missing hmissing)

end Settle

section IdentityServer

variable {env : Environment} {now : Nat} {store : Store} {token : JsValue}

theorem sound_identify_iff (requiresTerms : Bool) :
    Sound (NamedByRow (store .accessTokens) token) token
        (observed (settle env now (identify store token requiresTerms) token
          recordCallback { store })) ↔
      (token.text? = some "" →
        headUnreadable (store .accessTokens) requiresTerms) := by
  constructor
  · intro hsound hempty
    have hrefused := hsound.emptyRefused (.inr hempty)
    exact (identify_empty_refused hempty).mp
      ((refused_settle_iff rfl).mp hrefused)
  · intro hcondition
    by_cases hempty : token.text? = some ""
    · apply sound_of_refused
      apply (refused_settle_iff rfl).mpr
      exact (identify_empty_refused hempty).mpr (hcondition hempty)
    · apply sound_settle rfl
      · intro data hdata
        exact namedByRow_of_identify hempty hdata
      · intro status code herror
        exact identify_error hempty herror
      · rintro (hnullish | hdropped)
        · exact ⟨.unAuthorized, by rw [identify, if_pos hnullish]⟩
        · exact absurd hdropped hempty

end IdentityServer

section TomServer

variable {env : Environment} {conf : Config} {now : Nat} {store : Store}
variable {token : JsValue} {text : String}

theorem askDecision_ok {data : JsValue} (htext : token.text? = some text)
    (kept : text ≠ "")
    (h : TomServer.askDecision env conf now store token text = .ok data) :
    Authenticator.tomServer.Vouched env conf now store token data := by
  unfold TomServer.askDecision at h
  split at h
  · cases h
  · rename_i uid hwhoami
    split at h
    · refine .inr (.inl (namedByRow_of_identify ?_ h))
      rw [htext]
      exact fun heq => kept (Option.some.inj heq)
    · rename_i hnullish
      cases h
      exact .inr (.inr ⟨text, uid, htext, hwhoami, by simpa using hnullish,
        rfl⟩)

theorem askDecision_error {status : Nat} {code : ErrCode}
    (htext : token.text? = some text) (kept : text ≠ "")
    (h : TomServer.askDecision env conf now store token text =
      .error (status, code)) :
    status = 401 ∨
      ∃ data, Authenticator.tomServer.Vouched env conf now store token data := by
  unfold TomServer.askDecision at h
  split at h
  · cases h
    exact .inl rfl
  · split at h
    · have hkept : token.text? ≠ some "" := by
        rw [htext]
        exact fun heq => kept (Option.some.inj heq)
      rcases identify_error hkept h with hstatus | ⟨data, hdata⟩
      · exact .inl hstatus
      · exact .inr ⟨data, .inr (.inl hdata)⟩
    · cases h

theorem askDecision_empty_refused (htext : token.text? = some "") :
    (∃ code, TomServer.askDecision env conf now store token "" =
        .error (401, code)) ↔
      ∀ uid, TomServer.whoami env conf "" = some uid →
        uid.isNullish = true ∧ headUnreadable (store .accessTokens) true := by
  unfold TomServer.askDecision
  cases hwhoami : TomServer.whoami env conf "" with
  | none => simp
  | some uid =>
      cases hnullish : uid.isNullish with
      | true =>
          simp only [if_true, Option.some.injEq, forall_eq', hnullish, true_and]
          exact identify_empty_refused htext
      | false => simp [hnullish]

theorem decideToken_cases (env : Environment) (conf : Config) (now : Nat)
    (store : Store) (token : JsValue) (text : String) :
    (∃ row rest data, selectTokens (store .matrixTokens) token =
        some (row :: rest) ∧ row.data = some data ∧
      TomServer.decideToken env conf now store token text = .ok data) ∨
    TomServer.decideToken env conf now store token text =
      TomServer.askDecision env conf now store token text := by
  unfold TomServer.decideToken
  split
  · rename_i row rest hrows
    cases hdata : row.data with
    | none => exact .inr rfl
    | some data => exact .inl ⟨row, rest, data, hrows, hdata, rfl⟩
  · exact .inr rfl

theorem decideToken_empty_refused (htext : token.text? = some "") :
    (∃ code, TomServer.decideToken env conf now store token "" =
        .error (401, code)) ↔
      Authenticator.tomServer.RefusesEmpty env conf store := by
  have hask := @askDecision_empty_refused env conf now store token htext
  unfold TomServer.decideToken Authenticator.RefusesEmpty
  rw [selectTokens_empty _ htext, ← hask]
  cases store .matrixTokens with
  | nil => simp [headUnreadable]
  | cons row rest =>
      cases hdata : row.data with
      | none => simp [headUnreadable, readable, hdata]
      | some data => simp [headUnreadable, readable, hdata]

theorem sound_decideToken (htext : token.text? = some text)
    (kept : text ≠ "") :
    Sound (Authenticator.tomServer.Vouched env conf now store token) token
      (observed (settle env now
        (TomServer.decideToken env conf now store token text) token
        recordCallback { store })) := by
  have hkept : token.text? ≠ some "" := by
    rw [htext]
    exact fun heq => kept (Option.some.inj heq)
  have hnullish := isNullish_of_text? htext
  have hmissing : ¬ MissingOrEmpty token := by
    rintro (hnull | hempty)
    · rw [hnullish] at hnull
      cases hnull
    · exact hkept hempty
  rcases decideToken_cases env conf now store token text with
    ⟨row, rest, data, hrows, hdata, hdecide⟩ | hdecide
  · have hrow := mem_selectTokens hnullish hkept hrows
      (List.mem_cons_self (a := row) (l := rest))
    have hvouched : Authenticator.tomServer.Vouched env conf now store token
        data := .inl ⟨row, hrow.1, hrow.2, hdata⟩
    rw [hdecide]
    apply sound_settle rfl
    · intro admitted hadmitted
      cases hadmitted
      exact hvouched
    · intro status code herror
      cases herror
    · intro h
      exact absurd h hmissing
  · rw [hdecide]
    apply sound_settle rfl
    · intro data hask
      exact askDecision_ok htext kept hask
    · intro status code herror
      exact askDecision_error htext kept herror
    · intro h
      exact absurd h hmissing

end TomServer

section Exact

variable (env : Environment) (conf : Config) (now : Nat)

def AuthenticationSound (authenticator : Authenticator) (req : Request)
    (store : Store) : Prop :=
  Sound (authenticator.Vouched env conf now store (presentedToken req))
    (presentedToken req) (authenticator.attempt env conf now req store)

theorem presentedTexts_of_text?_none {token : JsValue}
    (h : token.text? = none) : presentedTexts token = [] := by
  unfold presentedTexts
  cases hbound : boundTexts token with
  | none => rfl
  | some texts =>
      obtain ⟨text, htext⟩ := text?_of_boundTexts hbound
      rw [h] at htext
      cases htext

theorem tomServer_silent {store : Store} {req : Request}
    (present : (presentedToken req).isNullish = false)
    (noText : (presentedToken req).text? = none) :
    Authenticator.tomServer.attempt env conf now req store = ([], []) := by
  simp only [Authenticator.attempt, Authenticator.procedure,
    TomServer.Authenticate, TomServer.authenticateToken, present,
    Bool.false_eq_true, if_false, serve_get, resolve_single present, noText,
    Option.bind_none, Option.map_none, TomServer.onMatrixTokens,
    TomServer.askMatrix, serve_done]
  rfl

theorem tomServer_sound_iff (req : Request) (store : Store) :
    AuthenticationSound env conf now .tomServer req store ↔
      ((presentedToken req).text? = some "" →
        Authenticator.tomServer.RefusesEmpty env conf store) ∧
      Authenticator.tomServer.Converts (presentedToken req) := by
  unfold AuthenticationSound
  cases htext : (presentedToken req).text? with
  | none =>
      cases hnullish : (presentedToken req).isNullish with
      | true =>
          simp only [reduceCtorEq, false_implies, true_and,
            Authenticator.Converts, hnullish, Bool.true_eq_false, iff_true]
          apply sound_of_refused
          simp [Authenticator.attempt, Authenticator.procedure,
            TomServer.Authenticate, TomServer.authenticateToken, hnullish,
            Refused, observed]
      | false =>
          simp only [Authenticator.Converts, hnullish, htext, ne_eq,
            not_true_eq_false, imp_false, and_false, iff_false]
          intro hsound
          have hrefused := hsound.otherwiseRefused ?_
          · rw [tomServer_silent env conf now hnullish htext] at hrefused
            simp [Refused] at hrefused
          · have hnone := presentedTexts_of_text?_none htext
            rintro data (⟨row, _, hrow, _⟩ | ⟨row, _, hrow, _⟩ |
              ⟨text, uid, hsome, _⟩)
            · simp [hnone] at hrow
            · simp [hnone] at hrow
            · rw [htext] at hsome
              cases hsome
  | some text =>
      have hobserved : Authenticator.tomServer.attempt env conf now req store =
          observed (settle env now
            (TomServer.decideToken env conf now store (presentedToken req) text)
            (presentedToken req) recordCallback { store }) :=
        TomServer.observed_authenticateToken env conf now { store } htext
      have hconverts :
          Authenticator.tomServer.Converts (presentedToken req) := by
        intro _
        simp [htext]
      rw [hobserved]
      by_cases hempty : text = ""
      · subst hempty
        simp only [hconverts, and_true, true_implies]
        constructor
        · intro hsound
          have hrefused := hsound.emptyRefused (.inr htext)
          exact (decideToken_empty_refused htext).mp
            ((refused_settle_iff rfl).mp hrefused)
        · intro hcondition
          apply sound_of_refused
          apply (refused_settle_iff rfl).mpr
          exact (decideToken_empty_refused htext).mpr hcondition
      · simp only [Option.some.injEq, hempty, false_implies, hconverts,
          and_self, iff_true]
        exact sound_decideToken htext hempty

/-- The authenticators are sound exactly on the requests whose token the
filter keeps, and on an empty token only by the content of the tables. -/
theorem authenticate_sound_iff (authenticator : Authenticator) (req : Request)
    (store : Store) :
    AuthenticationSound env conf now authenticator req store ↔
      ((presentedToken req).text? = some "" →
        authenticator.RefusesEmpty env conf store) ∧
      authenticator.Converts (presentedToken req) := by
  cases authenticator with
  | identityServer requiresTerms =>
      have hserve := serve_authenticateToken env now { store } recordCallback
        requiresTerms (presentedToken req)
      simp only [AuthenticationSound, Authenticator.attempt,
        Authenticator.procedure, IdentityServer.Authenticate, hserve,
        Authenticator.Converts, and_true]
      exact sound_identify_iff requiresTerms
  | tomServer => exact tomServer_sound_iff env conf now req store
  | federated addressParsed =>
      cases addressParsed with
      | true =>
          have hserve := FederatedIdentityService.serve_authenticateToken env
            now { store } recordCallback (presentedToken req)
          simp only [AuthenticationSound, Authenticator.attempt,
            Authenticator.procedure, FederatedIdentityService.Authenticate,
            if_true, hserve, Authenticator.Converts, and_true,
            Authenticator.RefusesEmpty, true_implies]
          exact sound_identify_iff false
      | false =>
          simp only [Authenticator.Converts, and_true,
            Authenticator.RefusesEmpty, Bool.false_eq_true, false_implies,
            implies_true, iff_true]
          apply sound_of_refused
          exact ⟨rfl, rfl⟩

end Exact

/-! An empty `access_token` admits the caller as the owner of the first row,
in each of the three services. -/

def emptyTokenRequest : Request where
  query := [("access_token", .str "")]

def aliceToken : TokenRow where
  id := "x7Qp"
  data := some (.obj [("sub", .str "@alice:example.org"), ("epoch", .num 0)])

def aliceStore : Store :=
  Function.update (Function.update emptyStore .accessTokens [aliceToken])
    .matrixTokens [aliceToken]

theorem emptyToken_admitted :
    ¬ AuthenticationSound (.offline id) .sample 0 (.identityServer true)
        emptyTokenRequest aliceStore ∧
      ¬ AuthenticationSound (.offline id) .sample 0 .tomServer
        emptyTokenRequest aliceStore ∧
      ¬ AuthenticationSound (.offline id) .sample 0 (.federated true)
        emptyTokenRequest aliceStore := by
  have hrefused (authenticator : Authenticator)
      (hsound : AuthenticationSound (.offline id) .sample 0 authenticator
        emptyTokenRequest aliceStore) :
      (authenticator.attempt (.offline id) .sample 0 emptyTokenRequest
        aliceStore).1.length = 0 := by
    rw [(hsound.emptyRefused (.inr rfl)).1]
    rfl
  refine ⟨?_, ?_, ?_⟩
  · intro hsound
    exact absurd (hrefused _ hsound) (by decide)
  · intro hsound
    exact absurd (hrefused _ hsound) (by decide)
  · intro hsound
    exact absurd (hrefused _ hsound) (by decide)

end TwakeKickstart

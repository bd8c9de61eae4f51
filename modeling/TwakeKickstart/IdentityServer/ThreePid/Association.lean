import TwakeKickstart.IdentityServer.ThreePid.Unbind

namespace TwakeKickstart.IdentityServer

open Library Utils

/-! What `bind` and `unbind` do to the associations of addresses with Matrix
IDs. -/

/-- The row stands for this address, as `bind` writes such rows. -/
def isFor (env : Environment) (address : String) (row : HashRow) : Bool :=
  row.hash == env.sha256 (hashedText address row.type row.pepper)

section Unbind

variable (env : Environment) (now : Nat)

/-- Nothing is removed, or the selected mapping is validated and for the
address of the request, and exactly the rows that associate that address with
the Matrix ID are removed. -/
def UnbindExact (req : Request) (store : Store) : Prop :=
  let after := (serve env now (unbind req) { store }).store .hashes
  after = store .hashes ∨
  ∃ content mapping rest, acceptedBody unbindSchema req = some content ∧
    selectMappings store (field content "sid")
      (field content "client_secret") = some (mapping :: rest) ∧
    mapping.valid = 1 ∧
    (JsValue.str mapping.address).strictEq
      (field (field content "threepid") "address") = true ∧
    after = (store .hashes).filter fun row =>
      !(valueIs env.driver (field content "mxid") row &&
        isFor env mapping.address row)

theorem filter_narrowed_iff (rows : List HashRow)
    (removed narrowed : HashRow → Bool) :
    rows.filter (fun row => !removed row) =
        rows.filter (fun row => !(removed row && narrowed row)) ↔
      ∀ row ∈ rows, removed row = true → narrowed row = true := by
  rw [filter_eq_filter_iff]
  apply forall_congr'
  intro row
  apply forall_congr'
  intro _
  cases removed row with
  | true => simp
  | false => simp

theorem filter_not_eq_self_iff (rows : List HashRow)
    (removed : HashRow → Bool) :
    rows.filter (fun row => !removed row) = rows ↔
      ∀ row ∈ rows, removed row = false := by
  rw [List.filter_eq_self]
  simp

/-- Unbinding is exact exactly when, once every check has passed, the rows of
the Matrix ID are all for the address of a validated mapping. -/
theorem unbind_exact_iff (req : Request) (store : Store) :
    UnbindExact env now req store ↔
      ∀ content mapping, UnbindReaches store req content mapping →
        ∀ row ∈ store .hashes,
          valueIs env.driver (field content "mxid") row = true →
          mapping.valid = 1 ∧ isFor env mapping.address row = true := by
  unfold UnbindExact
  rcases hashes_unbind env now { store } req with
    ⟨content, mapping, hreaches, hafter⟩ | ⟨hnever, hafter⟩
  · simp only [hafter]
    have hunique : ∀ content' mapping',
        UnbindReaches store req content' mapping' →
          content' = content ∧ mapping' = mapping := by
      intro content' mapping' h
      have hcontent := hreaches.accepted.symm.trans h.accepted
      cases hcontent
      obtain ⟨rest, hselected⟩ := hreaches.selected
      obtain ⟨rest', hselected'⟩ := h.selected
      have hmapping := hselected.symm.trans hselected'
      cases hmapping
      exact ⟨rfl, rfl⟩
    constructor
    · rintro (hkept | ⟨content', mapping', rest, hbody, hselected, hvalid, _,
        hremoved⟩)
      · intro content' mapping' h row hrow hvalue
        obtain ⟨rfl, rfl⟩ := hunique content' mapping' h
        have hfalse := (filter_not_eq_self_iff _ _).mp hkept row hrow
        rw [hvalue] at hfalse
        cases hfalse
      · intro content'' mapping'' h row hrow hvalue
        have hcontent := h.accepted.symm.trans hbody
        cases hcontent
        obtain ⟨rest'', hselected''⟩ := h.selected
        have hmapping := hselected''.symm.trans hselected
        cases hmapping
        obtain ⟨rfl, _⟩ := hunique _ _ h
        exact ⟨hvalid, (filter_narrowed_iff _ _ _).mp hremoved row hrow
          hvalue⟩
    · intro hrows
      cases hany : (store .hashes).any
          (valueIs env.driver (field content "mxid")) with
      | false =>
          left
          apply (filter_not_eq_self_iff _ _).mpr
          intro row hrow
          exact Bool.not_eq_true _ ▸ List.any_eq_false.mp hany row hrow
      | true =>
          obtain ⟨row, hrow, hvalue⟩ := List.any_eq_true.mp hany
          have hvalid := (hrows content mapping hreaches row hrow hvalue).1
          obtain ⟨rest, hselected⟩ := hreaches.selected
          refine .inr ⟨content, mapping, rest, hreaches.accepted, hselected,
            hvalid, hreaches.address, ?_⟩
          apply (filter_narrowed_iff _ _ _).mpr
          intro other hother hvalue
          exact (hrows content mapping hreaches other hother hvalue).2
  · simp only [hafter]
    constructor
    · intro _ content mapping h
      exact absurd h (hnever content mapping)
    · intro _
      exact .inl trivial

end Unbind

/-! Bob requests a token for Alice's address and, without validating anything,
unbinds her. -/

def bobToken : TokenRow where
  id := "b0b"
  data := some (.obj [("sub", .str "@bob:example.org")])

def unbindStore : Store :=
  Function.update (Function.update (Function.update emptyStore
    .accessTokens [bobToken])
    .mappings
    [{ clientSecret := "s3cret", sessionId := "sid1", medium := "email",
       valid := 0, address := "alice@example.org", submitTime := 0,
       sendAttempt := .int 1 }])
    .hashes
    [{ hash := "h-mail", pepper := "p", type := "email",
       value := "@alice:example.org", active := some 1 },
     { hash := "h-phone", pepper := "p", type := "msisdn",
       value := "@alice:example.org", active := some 1 }]

def unbindAliceRequest : Request where
  authorization := some "Bearer b0b"
  body := some (.obj [("client_secret", .str "s3cret"),
    ("mxid", .str "@alice:example.org"), ("sid", .str "sid1"),
    ("threepid", .obj [("address", .str "alice@example.org"),
      ("medium", .str "email")])])

theorem unbind_unvalidated :
    ¬ UnbindExact (.offline id) 0 unbindAliceRequest unbindStore := by
  rintro (hkept | ⟨content, mapping, rest, hbody, hselected, hvalid, _⟩)
  · exact absurd hkept (by decide)
  · cases hbody
    cases hselected
    exact absurd hvalid (by decide)

/-! Whose rows the two handlers touch. -/

/-- The rows that `bind` adds and those that `unbind` removes all belong to the
authenticated user. -/
def OwnRowsOnly (env : Environment) (conf : Config) (now : Nat)
    (req : Request) (store : Store) : Prop :=
  ∀ user, AuthenticatedAs store true req user →
    (∀ row ∈ (serve env now (bind env conf req) { store }).store .hashes,
      row ∉ store .hashes → row.value = user) ∧
    (∀ row ∈ store .hashes,
      row ∉ (serve env now (unbind req) { store }).store .hashes →
      row.value = user)

theorem unbind_removes_other_user :
    ¬ OwnRowsOnly (.offline id) .sample 0 unbindAliceRequest unbindStore := by
  intro hown
  obtain ⟨_, hremoved⟩ := hown "@bob:example.org" ⟨_, rfl, rfl⟩
  have hvalue := hremoved
    { hash := "h-mail", pepper := "p", type := "email",
      value := "@alice:example.org", active := some 1 } (by decide) (by decide)
  exact absurd hvalue (by decide)

/-- Whoever is authenticated, the rows that `bind` adds and that `unbind`
removes carry the Matrix ID of the body, and nothing else changes in the
table. -/
theorem bind_unbind_named_mxid (env : Environment) (conf : Config)
    (now : Nat) (req : Request) (store : Store) :
    ((serve env now (bind env conf req) { store }).store .hashes =
        store .hashes ∨
      ∃ content row, acceptedBody bindSchema req = some content ∧
        row.value = env.driver.text (field content "mxid") ∧
        (serve env now (bind env conf req) { store }).store .hashes =
          store .hashes ++ [row]) ∧
    ((serve env now (unbind req) { store }).store .hashes = store .hashes ∨
      ∃ content, acceptedBody unbindSchema req = some content ∧
        (serve env now (unbind req) { store }).store .hashes =
          (store .hashes).filter
            fun row => !valueIs env.driver (field content "mxid") row) := by
  refine ⟨?_, ?_⟩
  · rcases hashes_bind env now { store } conf req with
      hkept | ⟨content, mapping, pepper, hbody, hadded⟩
    · exact .inl hkept
    · exact .inr ⟨content, _, hbody, rfl, hadded⟩
  · rcases hashes_unbind env now { store } req with
      ⟨content, mapping, hreaches, hremoved⟩ | ⟨_, hkept⟩
    · exact .inr ⟨content, hreaches.accepted, hremoved⟩
    · exact .inl hkept

end TwakeKickstart.IdentityServer

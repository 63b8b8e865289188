import Raglogs.ApiKeyLaws
import Raglogs.Authorization

/-!
Who gets in, after any run of commands on the keys: everybody where a path is open or nobody is
asked, the bearer of a key that was made and not revoked, with a role that the path asks for, and
the principals of the identity provider. Whatever the keys store, no request is refused for it.
-/

namespace Raglogs.AuthorizationLaws

open ApiKeyLaws ApiKeys Authorization Collections KeyDefaults KeyedTables LogEntries
  QueryOverrides Scopes Text

variable {env : AuthEnvironment}

/-! Keys are not tokens of an identity provider. -/

theorem not_dot_of_urlSafe (secret : Secret) : ∀ c ∈ secret.text.toList, (c == '.') = false := by
  intro c hc
  have hsafe := List.all_eq_true.mp secret.urlSafe c hc
  rw [beq_eq_false_iff_ne]
  rintro rfl
  revert hsafe
  decide

theorem not_looksLikeJwt_token (m : Minted) : looksLikeJwt m.token = false := by
  have hchars : ∀ c ∈ m.token.toList, (c == '.') = false := by
    have hstart : ∀ c ∈ keyTokenPrefix.toList, (c == '.') = false := by simp [keyTokenPrefix]
    rw [Minted.token, String.toList_append]
    intro c hc
    rcases List.mem_append.mp hc with hc | hc
    · exact hstart c hc
    · exact not_dot_of_urlSafe m.secret c hc
  have hparts : m.token.toList.splitOn '.' = [m.token.toList] := List.splitOnP_eq_singleton hchars
  unfold looksLikeJwt
  rw [hparts]
  rfl

/-! Principals. -/

/-- What a principal gives. -/
def principalGrant (p : AuthPrincipal) : Grant :=
  ⟨p.role, p.scope, p.allowScopeOverride, defaultsOf p.configJson⟩

theorem defaultsOf_objectOf (config : Option Json) :
    defaultsOf (objectOf config) = defaultsOf config := by
  cases config with
  | none => rfl
  | some json => cases json <;> rfl

theorem principalGrant_keyPrincipal (row : ApiKey) :
    principalGrant (keyPrincipal row) = grantOf row := by
  unfold principalGrant keyPrincipal grantOf
  dsimp only
  rw [defaultsOf_objectOf]

/-- A principal that the identity provider vouches for. -/
def Vouched (env : AuthEnvironment) (token : String) (p : AuthPrincipal) : Prop :=
  env.authMode ≠ .apiKey ∧ looksLikeJwt token = true ∧ strip env.oidcIssuer ≠ "" ∧
    ∃ claims role, env.decode token = some claims ∧ roleFromClaims claims = .ok role ∧
      p = ⟨role, "default", "oidc", false, none⟩

theorem validateOidcToken_eq_some {token : String} {p : AuthPrincipal} :
    validateOidcToken env token = .ok (some p) ↔ strip env.oidcIssuer ≠ "" ∧
      ∃ claims role, env.decode token = some claims ∧ roleFromClaims claims = .ok role ∧
        p = ⟨role, "default", "oidc", false, none⟩ := by
  unfold validateOidcToken
  by_cases hissuer : strip env.oidcIssuer = ""
  · rw [if_pos hissuer]
    simp [hissuer]
  · rw [if_neg hissuer]
    cases hdecode : env.decode token with
    | none => simp
    | some claims =>
      dsimp only
      rw [bind_eq_ok]
      constructor
      · rintro ⟨role, hrole, h⟩
        exact ⟨hissuer, claims, role, rfl, hrole, (Option.some.inj (Except.ok.inj h)).symm⟩
      · rintro ⟨-, _, role, hclaims, hrole, rfl⟩
        obtain rfl := Option.some.inj hclaims
        exact ⟨role, hrole, rfl⟩

/-- The bearer of a text is the owner of a key or vouched for. -/
theorem authenticateToken_eq_some {table : KeyTable} {token : String} {p : AuthPrincipal} :
    authenticateToken env table token = .ok (some p) ↔ Vouched env token p ∨
      env.authMode ≠ .oidc ∧ looksLikeJwt token = false ∧
        (lookupApiKey env.keys table token).map keyPrincipal = some p := by
  unfold authenticateToken Vouched
  cases hjwt : looksLikeJwt token with
  | true =>
    rw [if_pos rfl]
    by_cases hmode : env.authMode = .apiKey
    · simp [hmode]
    · rw [if_neg hmode, validateOidcToken_eq_some]
      simp [hmode]
  | false =>
    rw [if_neg Bool.false_ne_true]
    by_cases hmode : env.authMode = .oidc
    · simp [hmode]
    · rw [if_neg hmode]
      simp [hmode]

theorem authorizeRequest_eq_proceed {table : KeyTable} {request : HttpRequest}
    {p : AuthPrincipal} : authorizeRequest env table request = .proceed (some p) ↔
      env.authEnabled = true ∧ ∃ allowed token,
        requiredRoles env.upper request.method request.path = some allowed ∧
          extractBearer env request.authorization = some token ∧ p.role ∈ allowed ∧
          authenticateToken env table token = .ok (some p) := by
  unfold authorizeRequest
  cases hroles : requiredRoles env.upper request.method request.path with
  | none => simp
  | some allowed =>
    cases henabled : env.authEnabled with
    | false => simp
    | true =>
      cases hbearer : extractBearer env request.authorization with
      | none => simp
      | some token =>
        simp only [Bool.not_true, Bool.false_eq_true, if_false, true_and, Option.some.injEq,
          exists_and_left, exists_eq_left']
        cases hauth : authenticateToken env table token with
        | error e => simp
        | ok principal =>
          cases principal with
          | none => simp
          | some q =>
            dsimp only
            by_cases hrole : q.role ∈ allowed
            · rw [if_pos hrole]
              simp only [Outcome.proceed.injEq, Option.some.injEq, Except.ok.injEq]
              constructor
              · rintro rfl
                exact ⟨hrole, rfl⟩
              · exact And.right
            · rw [if_neg hrole]
              simp only [reduceCtorEq, Except.ok.injEq, Option.some.injEq, false_iff, not_and]
              rintro hp rfl
              exact hrole hp

theorem authorizeRequest_eq_open {table : KeyTable} {request : HttpRequest} :
    authorizeRequest env table request = .proceed none ↔
      requiredRoles env.upper request.method request.path = none ∨ env.authEnabled = false := by
  unfold authorizeRequest
  cases requiredRoles env.upper request.method request.path with
  | none => simp
  | some allowed =>
    cases env.authEnabled with
    | false => simp
    | true =>
      simp only [Bool.not_true, Bool.false_eq_true, if_false, reduceCtorEq, or_false, iff_false]
      split
      · simp
      · split
        · simp
        · simp
        · split <;> simp

/-! After a run of commands. -/

/-- The role is one that the request asks for. -/
def RoleFits (env : AuthEnvironment) (request : HttpRequest) (role : String) : Prop :=
  ∃ allowed, requiredRoles env.upper request.method request.path = some allowed ∧ role ∈ allowed

/-- Who gets in: everybody, the owner of a key of the run, or whom the provider vouches for. -/
structure Decided (env : AuthEnvironment) (commands : List KeyCommand) (request : HttpRequest)
    (o : Outcome) : Prop where
  everybody : o = .proceed none ↔
    requiredRoles env.upper request.method request.path = none ∨ env.authEnabled = false
  owner : ∀ g, (∃ p, o = .proceed (some p) ∧ p.authMethod = "api_key" ∧ principalGrant p = g) ↔
    env.authEnabled = true ∧ env.authMode ≠ .oidc ∧ RoleFits env request g.role ∧
      ∃ token, extractBearer env request.authorization = some token ∧
        Holds env.keys commands token g
  vouched : ∀ p, (o = .proceed (some p) ∧ p.authMethod ≠ "api_key") ↔
    env.authEnabled = true ∧ RoleFits env request p.role ∧
      ∃ token, extractBearer env request.authorization = some token ∧ Vouched env token p

theorem authMethod_of_vouched {token : String} {p : AuthPrincipal} (h : Vouched env token p) :
    p.authMethod = "oidc" := by
  obtain ⟨-, -, -, claims, role, -, -, rfl⟩ := h
  rfl

/-- A text that gives something is no token of an identity provider. -/
theorem not_looksLikeJwt_of_holds {commands : List KeyCommand} {token : String} {g : Grant}
    (h : Holds env.keys commands token g) : looksLikeJwt token = false := by
  obtain ⟨before, m, r, after, -, rfl, -⟩ := h
  exact not_looksLikeJwt_token m

/-- Who gets in after every run of commands. -/
theorem authorizeRequest_exact {commands : List KeyCommand} (hfresh : Fresh commands)
    (request : HttpRequest) :
    Decided env commands request
      (authorizeRequest env (keysAfter env.keys commands) request) where
  everybody := authorizeRequest_eq_open
  owner g := by
    constructor
    · rintro ⟨p, ho, hmethod, rfl⟩
      obtain ⟨henabled, allowed, token, hroles, hbearer, hrole, hauth⟩ :=
        authorizeRequest_eq_proceed.mp ho
      rcases authenticateToken_eq_some.mp hauth with hvouched | ⟨hmode, -, hkey⟩
      · rw [authMethod_of_vouched hvouched] at hmethod
        exact absurd hmethod (by decide)
      · obtain ⟨row, hrow, rfl⟩ := Option.map_eq_some_iff.mp hkey
        refine ⟨henabled, hmode, ⟨allowed, hroles, hrole⟩, token, hbearer, ?_⟩
        rw [principalGrant_keyPrincipal]
        exact (lookupApiKey_grant hfresh).mp (by rw [hrow]; rfl)
    · rintro ⟨henabled, hmode, ⟨allowed, hroles, hrole⟩, token, hbearer, hholds⟩
      obtain ⟨row, hrow, rfl⟩ := Option.map_eq_some_iff.mp ((lookupApiKey_grant hfresh).mpr hholds)
      refine ⟨keyPrincipal row, ?_, rfl, principalGrant_keyPrincipal row⟩
      refine authorizeRequest_eq_proceed.mpr ⟨henabled, allowed, token, hroles, hbearer, hrole, ?_⟩
      exact authenticateToken_eq_some.mpr (.inr ⟨hmode, not_looksLikeJwt_of_holds hholds,
        by rw [hrow]; rfl⟩)
  vouched p := by
    constructor
    · rintro ⟨ho, hmethod⟩
      obtain ⟨henabled, allowed, token, hroles, hbearer, hrole, hauth⟩ :=
        authorizeRequest_eq_proceed.mp ho
      refine ⟨henabled, ⟨allowed, hroles, hrole⟩, token, hbearer, ?_⟩
      rcases authenticateToken_eq_some.mp hauth with hvouched | ⟨-, -, hkey⟩
      · exact hvouched
      · obtain ⟨row, -, rfl⟩ := Option.map_eq_some_iff.mp hkey
        exact absurd rfl hmethod
    · rintro ⟨henabled, ⟨allowed, hroles, hrole⟩, token, hbearer, hvouched⟩
      refine ⟨authorizeRequest_eq_proceed.mpr ⟨henabled, allowed, token, hroles, hbearer, hrole,
        authenticateToken_eq_some.mpr (.inl hvouched)⟩, ?_⟩
      rw [authMethod_of_vouched hvouched]
      decide

/-! The defaults of a principal. -/

/-- The defaults of who gets in: those last set for the key, or none for whom the provider
vouches for. -/
def DefaultsFor (env : AuthEnvironment) (commands : List KeyCommand) (request : HttpRequest)
    (p : AuthPrincipal) (d : KeyOverrideDefaults) : Prop :=
  (p.authMethod = "api_key" ∧ ∃ token g, extractBearer env request.authorization = some token ∧
      Holds env.keys commands token g ∧ g.defaults = d) ∨
    p.authMethod ≠ "api_key" ∧ d = KeyOverrideDefaults.none

/-- The overrides of a request that gets in are refused only for what the request itself gives:
whatever was last set for its key is within bounds. -/
theorem overrides_settled {commands : List KeyCommand} (hfresh : Fresh commands)
    (hkeeps : KeepsProviders env.keys.lowering) {s : QueryOverrides.Settings}
    (hs : s.WithinBounds env.keys.lowering) {request : HttpRequest} {p : AuthPrincipal}
    (hp : authorizeRequest env (keysAfter env.keys commands) request = .proceed (some p))
    (input : OverrideInput) :
    ∃ d, DefaultsFor env commands request p d ∧
      Settled env.keys.lowering input d s
        (resolveQueryOverrides env.keys.lowering env.keys.repr input p.configJson s true) := by
  obtain ⟨-, allowed, token, -, hbearer, -, hauth⟩ := authorizeRequest_eq_proceed.mp hp
  rcases authenticateToken_eq_some.mp hauth with hvouched | ⟨-, -, hkey⟩
  · have hmethod : p.authMethod ≠ "api_key" := by
      rw [authMethod_of_vouched hvouched]
      decide
    obtain ⟨-, -, -, claims, role, -, -, rfl⟩ := hvouched
    exact ⟨KeyOverrideDefaults.none, .inr ⟨hmethod, rfl⟩,
      settled_resolveQueryOverrides valid_none hs⟩
  · obtain ⟨row, hrow, rfl⟩ := Option.map_eq_some_iff.mp hkey
    have hgrant := principalGrant_keyPrincipal row
    have hholds : Holds env.keys commands token (grantOf row) :=
      (lookupApiKey_grant hfresh).mp (by rw [hrow]; rfl)
    have hvalid : Valid env.keys.lowering (principalGrant (keyPrincipal row)).defaults := by
      rw [hgrant]
      exact valid_run env.keys hkeeps commands row (mem_of_lookupApiKey hrow)
    refine ⟨(principalGrant (keyPrincipal row)).defaults,
      .inl ⟨rfl, token, grantOf row, hbearer, hholds, ?_⟩,
      settled_resolveQueryOverrides hvalid hs⟩
    rw [hgrant]

/-! A key for one scope. -/

def sampleHasher : Hasher where
  hash _ token := token
  verify stored token := token == stored
  verify_hash _ _ _ := rfl

def sampleAuth : AuthEnvironment where
  keys := ⟨sampleHasher, asciiLowering, id, ⟨id, fun l => .refl l⟩⟩
  upper := id
  authEnabled := true
  authMode := .apiKey
  oidcIssuer := ""
  decode _ := none

def sampleMinted : Minted := ⟨0, ⟨"ops", by decide⟩, "salt"⟩

def sampleKeyRequest : KeyRequest :=
  ⟨"query", "billing", none, false, ⟨none, some 5, none, none, none⟩⟩

def sampleCommands : List KeyCommand := [.create sampleMinted sampleKeyRequest]

def sampleHttp : HttpRequest := ⟨"POST", "/v1/query/ask", some "Bearer rlk_ops"⟩

theorem fresh_sample : Fresh sampleCommands := ⟨List.nodup_singleton _, List.nodup_singleton _⟩

theorem holds_sample : Holds sampleAuth.keys sampleCommands "rlk_ops"
    (grantAsked sampleAuth.keys sampleKeyRequest) := by
  have hallowed : Allowed sampleAuth.keys sampleKeyRequest := by
    refine ⟨by decide, by decide, by decide, fun _ h => (nomatch h), ?_⟩
    refine ⟨fun _ h => (nomatch h), fun n h => ?_, fun _ h => (nomatch h), fun _ h => (nomatch h)⟩
    obtain rfl := Option.some.inj h
    decide
  exact ⟨[], sampleMinted, sampleKeyRequest, [], rfl, rfl, hallowed, fun _ h => (nomatch h), rfl⟩

theorem sample_decided : Decided sampleAuth sampleCommands sampleHttp
    (authorizeRequest sampleAuth (keysAfter sampleAuth.keys sampleCommands) sampleHttp) :=
  authorizeRequest_exact fresh_sample sampleHttp

theorem proceed_sample : ∃ p, principalGrant p = grantAsked sampleAuth.keys sampleKeyRequest ∧
    authorizeRequest sampleAuth (keysAfter sampleAuth.keys sampleCommands) sampleHttp =
      .proceed (some p) := by
  obtain ⟨row, hrow, hgrant⟩ :=
    Option.map_eq_some_iff.mp ((lookupApiKey_grant fresh_sample).mpr holds_sample)
  have hp : principalGrant (keyPrincipal row) = grantAsked sampleAuth.keys sampleKeyRequest :=
    (principalGrant_keyPrincipal row).trans hgrant
  have hrole : (keyPrincipal row).role ∈ queryRoles := by
    rw [show (keyPrincipal row).role = (grantAsked sampleAuth.keys sampleKeyRequest).role from
      congrArg Grant.role hp]
    decide
  have hroles : requiredRoles sampleAuth.upper sampleHttp.method sampleHttp.path =
      some queryRoles := by decide +kernel
  have hbearer : extractBearer sampleAuth sampleHttp.authorization = some "rlk_ops" := by
    decide +kernel
  refine ⟨keyPrincipal row, hp, authorizeRequest_eq_proceed.mpr
    ⟨rfl, queryRoles, "rlk_ops", hroles, hbearer, hrole, ?_⟩⟩
  exact authenticateToken_eq_some.mpr (.inr ⟨by decide,
    not_looksLikeJwt_of_holds holds_sample, Option.map_eq_some_iff.mpr ⟨row, hrow, rfl⟩⟩)

theorem keepsProviders_ascii : KeepsProviders asciiLowering := by
  unfold KeepsProviders
  decide

theorem sample_settled : ∃ (p : AuthPrincipal) (d : KeyOverrideDefaults),
    DefaultsFor sampleAuth sampleCommands sampleHttp p d ∧
      Settled sampleAuth.keys.lowering emptyRequest d serverDefaults
        (resolveQueryOverrides sampleAuth.keys.lowering sampleAuth.keys.repr emptyRequest
          p.configJson serverDefaults true) := by
  have hkeeps : KeepsProviders sampleAuth.keys.lowering := keepsProviders_ascii
  have hs : serverDefaults.WithinBounds sampleAuth.keys.lowering := serverDefaults_withinBounds
  obtain ⟨p, -, hp⟩ := proceed_sample
  obtain ⟨d, hd, hsettled⟩ := overrides_settled fresh_sample hkeeps hs hp emptyRequest
  exact ⟨p, d, hd, hsettled⟩

end Raglogs.AuthorizationLaws

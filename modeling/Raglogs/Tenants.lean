import Raglogs.AuthorizationLaws
import Raglogs.QuestionLaws

/-!
Questions of the bearer of a key. The key of one scope is answered from the lines of this scope,
whatever has been done to the keys, and whatever other scopes have.
-/

namespace Raglogs.Tenants

open ApiKeyLaws ApiKeys Authorization AuthorizationLaws Collections ExplainRoute LogEntries
  QueryOverrides QuestionLaws Questions ScopedReads Scopes Text

/-- A route behind the authorization: what the request gets there, or why it does not. -/
def guarded {β : Type} (auth : AuthEnvironment) (table : KeyTable) (request : HttpRequest)
    (route : Option AuthPrincipal → β) : Outcome ⊕ β :=
  match authorizeRequest auth table request with
  | .proceed principal => .inr (route principal)
  | .refused e => .inl (.refused e)
  | .raised e => .inl (.raised e)

/-- The route for questions, behind the authorization. -/
def guardedAsk (auth : AuthEnvironment) (env : AskEnvironment) (server : Server)
    (table : KeyTable) (request : HttpRequest) (a : AskArrival) :
    Outcome ⊕ Except (RouteError AskError) AskResponse :=
  guarded auth table request fun principal =>
    askEndpoint env { server with authEnabled := auth.authEnabled }
      { a with principal := principal }

/-- A pinned principal is bound to its own scope or to none. -/
theorem bindRequestScope_pinned {p : AuthPrincipal} {queryScope bodyScope : Option String}
    {scope : String} (hpinned : p.allowScopeOverride = false)
    (h : bindRequestScope true (some p) queryScope bodyScope = .ok scope) :
    scope = strip p.scope := by
  unfold bindRequestScope resolveScope at h
  simp only [Bool.not_true, Bool.false_eq_true, if_false, hpinned, Bool.not_false, or_true,
    if_true] at h
  cases hown : normalizeRequestedScope (some p.scope) with
  | none =>
    rw [hown] at h
    cases h
  | some own =>
    rw [hown] at h
    dsimp only at h
    split at h
    · obtain rfl := Except.ok.inj h
      exact ((Option.some.inj (truthy_eq_some.mp hown).1)).symm
    · cases h

/-- Nobody is bound to no scope. -/
theorem bindRequestScope_nobody {queryScope bodyScope : Option String} {scope : String} :
    bindRequestScope true none queryScope bodyScope ≠ .ok scope := by
  intro h
  cases h

/-- Two stores with the same lines in a scope, and the same vectors of these. -/
structure SameTenant (scope : String) (store store' : AskStore) : Prop where
  lines : SameEntries scope store.logs store'.logs
  vectors : ∀ e ∈ store.logs.entries, e.scope = scope →
    store.embeddings.find? (fun m => m.logEntryId == e.id) =
      store'.embeddings.find? fun m => m.logEntryId == e.id

theorem scope_of_accepts {f : AskFilter} {e : LogEntry} (h : f.accepts e = true) :
    e.scope = f.scope := by
  unfold AskFilter.accepts at h
  simp only [Bool.and_eq_true, beq_iff_eq] at h
  exact h.1.1.1

theorem SameTenant.sameLines {f : AskFilter} {store store' : AskStore}
    (h : SameTenant f.scope store store') : SameLines f store store' where
  lines := filter_eq_of_part h.lines fun _ he => beq_iff_eq.mpr (scope_of_accepts he)
  vectors e he haccepts := h.vectors e he (scope_of_accepts haccepts)

/-- An answer depends on the scope that the question is bound to. -/
theorem askEndpoint_of_scope (env : AskEnvironment) {server : Server} (a : AskArrival)
    {scope : String} {store' : AskStore}
    (hscope : ∀ q, settleQuestion server a = .ok q → q.scope = scope)
    (h : SameTenant scope a.store store') :
    askEndpoint env server { a with store := store' } = askEndpoint env server a := by
  have hsettle : settleQuestion server { a with store := store' } = settleQuestion server a := rfl
  unfold askEndpoint
  rw [hsettle]
  cases hq : settleQuestion server a with
  | error e => rfl
  | ok q =>
    obtain rfl := hscope q hq
    have hanswer := answer_eq_of_sameLines env a q store' fun window _ => SameTenant.sameLines h
    show (Except.mapError _ _ >>= _) = (Except.mapError _ _ >>= _)
    rw [hanswer]

section Bearer

variable {auth : AuthEnvironment} {commands : List KeyCommand} {request : HttpRequest}
  {token : String} {g : Grant}

/-- The principal of a request that shows a key is that of the key. -/
theorem grant_of_proceed (hfresh : Fresh commands)
    (hbearer : extractBearer auth request.authorization = some token)
    (hholds : Holds auth.keys commands token g) {p : AuthPrincipal}
    (hp : authorizeRequest auth (keysAfter auth.keys commands) request = .proceed (some p)) :
    principalGrant p = g := by
  obtain ⟨-, allowed, shown, -, hshown, -, hauth⟩ := authorizeRequest_eq_proceed.mp hp
  obtain rfl : token = shown := Option.some.inj (hbearer.symm.trans hshown)
  rcases authenticateToken_eq_some.mp hauth with hvouched | ⟨-, -, hkey⟩
  · have hjwt := not_looksLikeJwt_of_holds hholds
    rw [hvouched.2.1] at hjwt
    cases hjwt
  · obtain ⟨row, hrow, rfl⟩ := Option.map_eq_some_iff.mp hkey
    have hgrant := (lookupApiKey_grant hfresh).mpr hholds
    rw [hrow] at hgrant
    exact (principalGrant_keyPrincipal row).trans (Option.some.inj hgrant)

/-- The scope of a question of the bearer of a pinned key is that of the key. -/
theorem scope_of_pinned {server : Server} {a : AskArrival} {q : Question}
    (hfresh : Fresh commands) (hbearer : extractBearer auth request.authorization = some token)
    (hholds : Holds auth.keys commands token g) (hpinned : g.allowScopeOverride = false)
    (ho : authorizeRequest auth (keysAfter auth.keys commands) request = .proceed a.principal)
    (henabled : server.authEnabled = true) (hq : settleQuestion server a = .ok q) :
    q.scope = strip g.scope := by
  have hbound := scope_of_settleQuestion hq
  rw [henabled] at hbound
  cases hprincipal : a.principal with
  | none =>
    rw [hprincipal] at hbound
    exact absurd hbound bindRequestScope_nobody
  | some p =>
    rw [hprincipal] at hbound ho
    have hgrant := grant_of_proceed hfresh hbearer hholds ho
    have hown : p.allowScopeOverride = false :=
      (congrArg Grant.allowScopeOverride hgrant).trans hpinned
    have hscope : p.scope = g.scope := congrArg Grant.scope hgrant
    rw [bindRequestScope_pinned hown hbound, hscope]

/-- What the bearer of a pinned key is answered depends on the scope that the key was made
with, after every run of commands on the keys. -/
theorem guardedAsk_pinned {env : AskEnvironment} {server : Server} (hfresh : Fresh commands)
    (henabled : auth.authEnabled = true)
    (hbearer : extractBearer auth request.authorization = some token)
    (hholds : Holds auth.keys commands token g) (hpinned : g.allowScopeOverride = false)
    (a : AskArrival) (store' : AskStore) (h : SameTenant (strip g.scope) a.store store') :
    guardedAsk auth env server (keysAfter auth.keys commands) request { a with store := store' } =
      guardedAsk auth env server (keysAfter auth.keys commands) request a := by
  unfold guardedAsk guarded
  cases ho : authorizeRequest auth (keysAfter auth.keys commands) request with
  | refused e => rfl
  | raised e => rfl
  | proceed principal =>
    have hsame : askEndpoint env { server with authEnabled := auth.authEnabled }
          { a with store := store', principal := principal } =
        askEndpoint env { server with authEnabled := auth.authEnabled }
          { a with principal := principal } :=
      askEndpoint_of_scope env { a with principal := principal }
        (fun q hq => scope_of_pinned hfresh hbearer hholds hpinned ho henabled hq) h
    exact congrArg Sum.inr hsame

end Bearer

/-! The bearer of the key of one scope, and a line of another. -/

def billingRows : AskStore where
  logs := ⟨[refundLine], by decide⟩
  embeddings := [⟨1, direction true⟩]
  embeddings_nodup := by simp

def billingRowsWithOther : AskStore where
  logs := ⟨[loginLine, refundLine], by decide⟩
  embeddings := [⟨0, direction true⟩, ⟨1, direction true⟩]
  embeddings_nodup := by simp

theorem sameTenant_billing : SameTenant "billing" billingRows billingRowsWithOther where
  lines := by
    show _ = List.filter (fun e => e.scope == "billing") (loginLine :: billingRows.logs.entries)
    rw [List.filter_cons_of_neg (by decide)]
  vectors e he _ := by
    obtain rfl := List.mem_singleton.mp he
    rfl

/-- The answer behind the authorization. -/
def answeredBehind (outcome : Outcome ⊕ Except (RouteError AskError) AskResponse) :
    Option (String × ℕ) :=
  outcome.elim (fun _ => none) answeredBy

theorem sample_pinned :
    guardedAsk sampleAuth askEnvironment ExplainRouteLaws.sampleServer
        (keysAfter sampleAuth.keys sampleCommands) sampleHttp
        (sampleQuestion "billing" billingRowsWithOther) =
      guardedAsk sampleAuth askEnvironment ExplainRouteLaws.sampleServer
        (keysAfter sampleAuth.keys sampleCommands) sampleHttp
        (sampleQuestion "billing" billingRows) ∧
      answeredBehind (guardedAsk sampleAuth askEnvironment ExplainRouteLaws.sampleServer
        (keysAfter sampleAuth.keys sampleCommands) sampleHttp
        (sampleQuestion "billing" billingRows)) = some ("semantic", 1) := by
  refine ⟨?_, by decide +kernel⟩
  have hbearer : extractBearer sampleAuth sampleHttp.authorization = some "rlk_ops" := by
    decide +kernel
  have hscope : strip (grantAsked sampleAuth.keys sampleKeyRequest).scope = "billing" := by
    decide
  refine guardedAsk_pinned fresh_sample rfl hbearer holds_sample rfl
    (sampleQuestion "billing" billingRows) billingRowsWithOther ?_
  rw [hscope]
  exact sameTenant_billing

end Raglogs.Tenants

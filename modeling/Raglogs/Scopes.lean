import Raglogs.LogEntries

/-!
The scope of a request. A pinned key, and a principal of an identity provider, has one scope
and may name no other; any other key may.
-/

namespace Raglogs.Scopes

open LogEntries Text

structure AuthPrincipal where
  role : String
  scope : String
  authMethod : String
  allowScopeOverride : Bool
  configJson : Option Json

structure ScopeResolutionError where
  statusCode : ℕ
  errorCode : String
  message : String
deriving DecidableEq

def defaultLogScope : String := "default"

/-- White space goes, and nothing left means that no scope was given. -/
def normalizeRequestedScope (value : Option String) : Option String := truthy (value.map strip)

/-- The scope to stamp and filter with. -/
def resolveScope (requestedScope : Option String) (authEnabled : Bool)
    (principal : Option AuthPrincipal) : Except ScopeResolutionError String :=
  let requested := normalizeRequestedScope requestedScope
  if !authEnabled then .ok (requested.getD defaultLogScope)
  else
    match principal with
    | none =>
        .error ⟨400, "SCOPE_REQUIRED", "A resolvable scope is required for this request"⟩
    | some principal =>
        let principalScope := normalizeRequestedScope (some principal.scope)
        if principal.authMethod = "oidc" ∨ !principal.allowScopeOverride then
          match principalScope with
          | none =>
              .error ⟨400, "SCOPE_REQUIRED", "API key has no scope; mint a key with --scope"⟩
          | some principalScope =>
              if requested.all (fun requested => requested = principalScope) then
                .ok principalScope
              else
                .error ⟨403, "SCOPE_MISMATCH",
                  "Request scope does not match the API key's pinned scope"⟩
        else
          match requested.or principalScope with
          | some resolved => .ok resolved
          | none =>
              .error ⟨400, "SCOPE_REQUIRED",
                "Pass scope on the request or mint a key with a default scope"⟩

/-- The scope of the body, or that of the query. -/
def requestedScopeFromHttp (queryScope bodyScope : Option String) : Option String :=
  (normalizeRequestedScope bodyScope).or (normalizeRequestedScope queryScope)

def bindRequestScope (authEnabled : Bool) (principal : Option AuthPrincipal)
    (queryScope bodyScope : Option String) : Except ScopeResolutionError String :=
  resolveScope (requestedScopeFromHttp queryScope bodyScope) authEnabled principal

end Raglogs.Scopes

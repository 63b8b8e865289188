import Raglogs.ApiKeys
import Raglogs.Scopes

/-!
Who may make a request. A path asks for a role, unless it is open to everybody; a request shows
an API key or a token of an identity provider, and goes on with the role and the scope of its
principal.
-/

namespace Raglogs.Authorization

open ApiKeys KeyDefaults LogEntries Scopes Text

/-! Paths. -/

def ingestRoles : List String := ["ingest", "admin"]

def queryRoles : List String := ["query", "admin"]

def adminRoles : List String := ["admin"]

def exemptPrefixes : List String := ["/health", "/metrics"]

/-- A path without the slashes at its end; the empty path is the root. -/
def normalizePath (path : String) : String :=
  if path = "" then "/"
  else if 1 < path.length && path.toList.getLast? == some '/' then
    String.ofList (path.toList.reverse.dropWhile fun c => c == '/').reverse
  else path

/-- What is left after a version, if a slash or the end comes next. -/
def afterVersion : List Char → Option (List Char)
  | '/' :: 'v' :: rest =>
      let after := rest.dropWhile isDigit
      if (rest.head?.any isDigit) && (after.isEmpty || after == ['\n'] || after.head? == some '/')
      then some after
      else none
  | _ => none

def stripApiVersion (path : String) : String :=
  let stripped := ((afterVersion path.toList).map String.ofList).getD path
  if stripped = "" then "/" else stripped

def startsWith (s start : String) : Bool := start.toList.isPrefixOf s.toList

/-- A path or one below it. -/
def within (path base : String) : Bool := path == base || startsWith path (base ++ "/")

def routePath (path : String) : String := stripApiVersion (normalizePath path)

def isExemptPath (path : String) : Bool :=
  exemptPrefixes.any fun base => within (routePath path) base

/-- The roles that may make a request, or nothing for a path that is open to everybody. -/
def requiredRoles (upper : String → String) (method path : String) : Option (List String) :=
  if isExemptPath path then none
  else
    let normalized := routePath path
    if within normalized "/ingestions" then
      some (if upper method = "POST" then ingestRoles else queryRoles)
    else if within normalized "/query" then some queryRoles
    else if within normalized "/config" then some adminRoles
    else if normalized = "/" || startsWith normalized "/static" then some queryRoles
    else if ["/docs", "/redoc", "/openapi.json"].contains normalized ||
        startsWith normalized "/docs/" || startsWith normalized "/redoc/" then some queryRoles
    else if within normalized "/admin" then some adminRoles
    else some adminRoles

/-! Credentials. -/

inductive AuthMode
  | apiKey
  | oidc
  | both
deriving DecidableEq

structure AuthEnvironment where
  keys : KeyEnvironment
  upper : String → String
  authEnabled : Bool
  authMode : AuthMode
  oidcIssuer : String
  /-- The claims of a token that the provider's keys verify, unless it is refused. -/
  decode : String → Option Fields

structure HttpRequest where
  method : String
  path : String
  authorization : Option String

variable (env : AuthEnvironment)

/-- Three parts between dots, none of them empty. -/
def looksLikeJwt (token : String) : Bool :=
  let parts := token.toList.splitOn '.'
  parts.length == 3 && parts.all fun part => !part.isEmpty

/-- An error that is not an answer. -/
inductive AuthRaised
  | unhashable

/-- The first valid role of a list. A list or an object cannot be looked up in a set. -/
def firstRole : List Json → Except AuthRaised String
  | [] => .ok "query"
  | .arr _ :: _ => .error .unhashable
  | .obj _ :: _ => .error .unhashable
  | .str role :: rest => if role ∈ validRoles then .ok role else firstRole rest
  | _ :: rest => firstRole rest

def roleFromClaims (claims : Fields) : Except AuthRaised String :=
  let roles := match claims.lookup "roles" with
    | some (.str role) => .ok (if role ∈ validRoles then role else "query")
    | some (.arr items) => firstRole items
    | _ => .ok "query"
  match claims.lookup "raglogs_role" with
  | some (.str role) => if role ∈ validRoles then .ok role else roles
  | _ => roles

/-- A principal of the identity provider, in the one scope of its principals. -/
def validateOidcToken (token : String) : Except AuthRaised (Option AuthPrincipal) :=
  if strip env.oidcIssuer = "" then .ok none
  else
    match env.decode token with
    | none => .ok none
    | some claims => do
        let role ← roleFromClaims claims
        return some ⟨role, "default", "oidc", false, none⟩

/-- An object that is stored for a key. -/
def objectOf : Option Json → Option Json
  | some (.obj fields) => some (.obj fields)
  | _ => none

def keyPrincipal (row : ApiKey) : AuthPrincipal :=
  ⟨row.role, row.scope, "api_key", row.allowScopeOverride, objectOf row.configJson⟩

def authenticateToken (table : KeyTable) (token : String) :
    Except AuthRaised (Option AuthPrincipal) :=
  if looksLikeJwt token then
    if env.authMode = .apiKey then .ok none else validateOidcToken env token
  else if env.authMode = .oidc then .ok none
  else .ok ((lookupApiKey env.keys table token).map keyPrincipal)

/-- The text after the word that says that it is a token. -/
def extractBearer (authorization : Option String) : Option String :=
  authorization.bind fun header =>
    let scheme := header.toList.takeWhile fun c => c != ' '
    let remainder := header.toList.drop (scheme.length + 1)
    if env.keys.lowering.lower (String.ofList scheme) ≠ "bearer" then none
    else truthy (some (strip (String.ofList remainder)))

/-! Requests. -/

structure AuthError where
  statusCode : ℕ
  errorCode : String
  message : String
deriving DecidableEq

/-- What becomes of a request before its route sees it. -/
inductive Outcome
  | proceed (principal : Option AuthPrincipal)
  | refused (e : AuthError)
  | raised (e : AuthRaised)

def missingToken : AuthError :=
  ⟨401, "AUTH_UNAUTHORIZED", "Missing or invalid Authorization bearer token"⟩

def badCredentials : AuthError := ⟨401, "AUTH_UNAUTHORIZED", "Invalid or revoked credentials"⟩

def insufficientRole : AuthError := ⟨403, "AUTH_FORBIDDEN", "Insufficient role for this endpoint"⟩

def authorizeRequest (table : KeyTable) (request : HttpRequest) : Outcome :=
  match requiredRoles env.upper request.method request.path with
  | none => .proceed none
  | some allowed =>
      if !env.authEnabled then .proceed none
      else
        match extractBearer env request.authorization with
        | none => .refused missingToken
        | some token =>
            match authenticateToken env table token with
            | .error e => .raised e
            | .ok none => .refused badCredentials
            | .ok (some principal) =>
                if principal.role ∈ allowed then .proceed (some principal)
                else .refused insufficientRole

end Raglogs.Authorization

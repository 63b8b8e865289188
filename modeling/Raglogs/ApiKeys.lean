import Raglogs.Grouping
import Raglogs.KeyDefaults
import Raglogs.KeyedTables

/-!
API keys. A key is a text that is shown once; what is stored is its first characters, to find its
row by, and a hash of it. A key has a role, a scope and query defaults, and is good until it is
revoked.
-/

namespace Raglogs.ApiKeys

open Collections Grouping KeyDefaults KeyedTables LogEntries QueryOverrides Text

structure ApiKey where
  id : ℕ
  name : Option String
  keyPrefix : String
  keyHash : String
  role : String
  scope : String
  allowScopeOverride : Bool
  configJson : Option Json
  revokedAt : Option Timestamp

abbrev KeyTable := Table ApiKey.id

/-- Salted hashes. A hash verifies the text that it was made of, and no other. -/
structure Hasher where
  hash : String → String → String
  verify : String → String → Bool
  verify_hash : ∀ salt token other, verify (hash salt token) other = (other == token)

/-- A text of the characters that are safe in a URL. -/
structure Secret where
  text : String
  urlSafe : text.toList.all (fun c => c.isAlphanum || c == '-' || c == '_') = true

/-- What a new key gets from the system. -/
structure Minted where
  id : ℕ
  secret : Secret
  salt : String

structure KeyEnvironment where
  hasher : Hasher
  lowering : Lowering
  repr : String → String
  /-- The order in which the database returns the rows of a prefix. -/
  engine : Shuffle ApiKey

variable (env : KeyEnvironment)

def keyTokenPrefix : String := "rlk_"

def keyPrefixLen : ℕ := 12

def validRoles : List String := ["admin", "ingest", "query"]

/-- The plaintext of a new key. -/
def Minted.token (m : Minted) : String := keyTokenPrefix ++ m.secret.text

/-- The first characters of a key, which are stored. -/
def keyPrefix (token : String) : String := Text.take keyPrefixLen token

/-! Looking up a key. -/

/-- The first row that is not revoked, has the prefix of a text and verifies it. -/
def findVerifiedKey (token : String) (candidates : List ApiKey) : Option ApiKey :=
  candidates.find? fun row => row.revokedAt.isNone && row.keyPrefix == keyPrefix token &&
    env.hasher.verify row.keyHash token

def lookupApiKey (table : KeyTable) (token : String) : Option ApiKey :=
  findVerifiedKey env token (env.engine.1 (table.rows.filter fun row =>
    row.keyPrefix == keyPrefix token && row.revokedAt.isNone))

/-! Changing the keys. -/

inductive KeyError
  | role
  | scope
  | noDefaults
  | unknownKey
  | raised (e : Raised)
  | database

/-- What is asked of a new key. -/
structure KeyRequest where
  role : String
  scope : String
  name : Option String
  allowScopeOverride : Bool
  defaults : KeyOverrideDefaults

/-- A scope and a name as long as their columns allow. -/
def fitsColumns (row : ApiKey) : Bool :=
  row.scope.length ≤ 255 && row.name.all fun name => name.length ≤ 255

def persistKey (row : ApiKey) (table : KeyTable) : Except KeyError KeyTable :=
  if fitsColumns row then (table.insert row).elim (.error .database) .ok else .error .database

/-- The row of a new key. -/
def newRow (m : Minted) (r : KeyRequest) (configJson : Option Json) : ApiKey where
  id := m.id
  name := r.name
  keyPrefix := keyPrefix m.token
  keyHash := env.hasher.hash m.salt m.token
  role := r.role
  scope := r.scope
  allowScopeOverride := r.allowScopeOverride
  configJson := configJson
  revokedAt := none

def createApiKey (m : Minted) (r : KeyRequest) (configJson : Option Json) (table : KeyTable) :
    Except KeyError KeyTable :=
  if r.role ∉ validRoles then .error .role
  else if r.scope = "" then .error .scope
  else persistKey (newRow env m r configJson) table

/-- The command that makes a key. -/
def createCmd (m : Minted) (r : KeyRequest) (table : KeyTable) : Except KeyError KeyTable :=
  let role := env.lowering.lower (strip r.role)
  if role ∉ validRoles then .error .role
  else do
    let configJson ← (buildKeyConfigJson env.lowering env.repr r.defaults).mapError .raised
    createApiKey env m { r with role := role } configJson table

/-- The first revocation stays. -/
def revocation (now : Timestamp) : Table.Change ApiKey.id :=
  ⟨fun row => { row with revokedAt := row.revokedAt.or (some now) }, fun _ => rfl⟩

def revokeApiKey (keyId : ℕ) (now : Timestamp) (table : KeyTable) : Option KeyTable :=
  (table.find keyId).map fun _ => table.modify (revocation now) keyId

def revokeCmd (keyId : ℕ) (now : Timestamp) (table : KeyTable) : Except KeyError KeyTable :=
  (revokeApiKey keyId now table).elim (.error .unknownKey) .ok

def reconfiguration (configJson : Option Json) : Table.Change ApiKey.id :=
  ⟨fun row => { row with configJson := configJson }, fun _ => rfl⟩

/-- Merge defaults into those of a key, if there is one. -/
def setApiKeyDefaults (keyId : ℕ) (given : KeyOverrideDefaults) (clear : Bool)
    (table : KeyTable) : Except Raised (Option KeyTable) :=
  match table.find keyId with
  | none => .ok none
  | some row => do
      let configJson ← mergeKeyConfig env.lowering env.repr row.configJson given clear
      return some (table.modify (reconfiguration configJson) keyId)

/-- No default is given. -/
def nothingGiven (given : KeyOverrideDefaults) : Bool :=
  given.baselineWindow.isNone && given.maxClusters.isNone && given.maxEvidenceItems.isNone &&
    given.llmProvider.isNone && given.llmEnabled.isNone

def setDefaultsCmd (keyId : ℕ) (given : KeyOverrideDefaults) (clear : Bool) (table : KeyTable) :
    Except KeyError KeyTable :=
  if !clear && nothingGiven given then .error .noDefaults
  else do
    let changed ← (setApiKeyDefaults env keyId given clear table).mapError .raised
    changed.elim (.error .unknownKey) .ok

/-! Runs of commands. -/

inductive KeyCommand
  | create (m : Minted) (r : KeyRequest)
  | setDefaults (keyId : ℕ) (given : KeyOverrideDefaults) (clear : Bool)
  | revoke (keyId : ℕ) (now : Timestamp)

def KeyCommand.run : KeyCommand → KeyTable → Except KeyError KeyTable
  | .create m r => createCmd env m r
  | .setDefaults keyId given clear => setDefaultsCmd env keyId given clear
  | .revoke keyId now => revokeCmd keyId now

/-- The keys after a command; one that fails leaves them as they are. -/
def afterCommand (table : KeyTable) (c : KeyCommand) : KeyTable :=
  ((c.run env table).toOption).getD table

def keysAfter (commands : List KeyCommand) : KeyTable :=
  commands.foldl (afterCommand env) Table.empty

end Raglogs.ApiKeys

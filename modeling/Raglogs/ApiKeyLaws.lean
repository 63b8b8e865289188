import Raglogs.ApiKeys

/-!
What the keys are after a run of commands. A text is the key of somebody exactly if the run made
it and did not revoke it since; it gives the role and the scope that it was made with, and the
defaults that were last set for it.
-/

namespace Raglogs.ApiKeyLaws

open ApiKeys Collections KeyDefaults KeyedTables LogEntries QueryOverrides Text

/-! What a key gives. -/

/-- What a key gives its bearer. -/
structure Grant where
  role : String
  scope : String
  allowScopeOverride : Bool
  defaults : KeyOverrideDefaults

def grantOf (row : ApiKey) : Grant :=
  ⟨row.role, row.scope, row.allowScopeOverride, defaultsOf row.configJson⟩

variable (env : KeyEnvironment)

/-- A request that a key is made for. -/
structure Allowed (r : KeyRequest) : Prop where
  role : env.lowering.lower (strip r.role) ∈ validRoles
  scope : r.scope ≠ ""
  scope_fits : r.scope.length ≤ 255
  name_fits : ∀ name ∈ r.name, name.length ≤ 255
  defaults : Valid env.lowering r.defaults

/-- What a new key gives. -/
def grantAsked (r : KeyRequest) : Grant :=
  ⟨env.lowering.lower (strip r.role), r.scope, r.allowScopeOverride,
    normalized env.lowering r.defaults⟩

/-- The key that a command makes. -/
def made : KeyCommand → Option Minted
  | .create m _ => some m
  | _ => none

def revokes (id : ℕ) : KeyCommand → Bool
  | .revoke keyId _ => keyId == id
  | _ => false

/-- The defaults of a key after a command: nothing, or what it gives over the old ones. -/
def redefined (lowering : Lowering) (id : ℕ) (d : KeyOverrideDefaults) :
    KeyCommand → KeyOverrideDefaults
  | .setDefaults keyId given clear =>
      if keyId ≠ id then d
      else if clear then KeyOverrideDefaults.none
      else if Valid lowering given then overlay (normalized lowering given) d
      else d
  | _ => d

/-- A text is a key that some commands made and did not revoke since. -/
def Holds (commands : List KeyCommand) (token : String) (g : Grant) : Prop :=
  ∃ before m r after, commands = before ++ .create m r :: after ∧ m.token = token ∧
    Allowed env r ∧ (∀ c ∈ after, revokes m.id c = false) ∧
    g = { grantAsked env r with
      defaults := after.foldl (redefined env.lowering m.id) (grantAsked env r).defaults }

/-- No identifier and no text is given out twice. -/
structure Fresh (commands : List KeyCommand) : Prop where
  ids : ((commands.filterMap made).map Minted.id).Nodup
  tokens : ((commands.filterMap made).map Minted.token).Nodup

variable {env}

/-! One command. -/

theorem fitsColumns_newRow {m : Minted} {r : KeyRequest} {config : Option Json} :
    fitsColumns (newRow env m r config) = true ↔
      r.scope.length ≤ 255 ∧ ∀ name ∈ r.name, name.length ≤ 255 := by
  unfold fitsColumns newRow
  rw [Bool.and_eq_true, decide_eq_true_eq, Option.all_eq_true]
  simp

theorem elim_eq_ok {ε α : Type} {e : ε} {o : Option α} {a : α} :
    o.elim (Except.error e) Except.ok = .ok a ↔ o = some a := by
  cases o <;> simp

/-- The row of a key that a request is made for. -/
def rowAsked (env : KeyEnvironment) (m : Minted) (r : KeyRequest) : ApiKey :=
  newRow env m { r with role := env.lowering.lower (strip r.role) }
    (orNone (entries (normalized env.lowering r.defaults)))

theorem grantOf_rowAsked (m : Minted) (r : KeyRequest) :
    grantOf (rowAsked env m r) = grantAsked env r := by
  show Grant.mk _ _ _ (defaultsOf (orNone _)) = Grant.mk _ _ _ _
  rw [defaultsOf_orNone, defaultsIn_entries]
  rfl

theorem createCmd_eq_ok {m : Minted} {r : KeyRequest} {table table' : KeyTable} :
    createCmd env m r table = .ok table' ↔
      Allowed env r ∧ table.insert (rowAsked env m r) = some table' := by
  constructor
  · intro h
    unfold createCmd at h
    dsimp only at h
    split at h
    · cases h
    · rename_i hrole
      obtain ⟨config, hconfig, h⟩ := bind_eq_ok.mp h
      obtain ⟨hvalid, rfl⟩ := buildKeyConfigJson_eq_ok.mp (mapError_eq_ok.mp hconfig)
      unfold createApiKey persistKey at h
      split_ifs at h with hrole' hscope hfits
      obtain ⟨hscope', hname⟩ := fitsColumns_newRow.mp hfits
      exact ⟨⟨not_not.mp hrole, hscope, hscope', hname, hvalid⟩, elim_eq_ok.mp h⟩
  · rintro ⟨h, hinsert⟩
    have hconfig : buildKeyConfigJson env.lowering env.repr r.defaults =
        .ok (orNone (entries (normalized env.lowering r.defaults))) :=
      buildKeyConfigJson_eq_ok.mpr ⟨h.defaults, rfl⟩
    have hfits : fitsColumns (rowAsked env m r) = true :=
      fitsColumns_newRow.mpr ⟨h.scope_fits, h.name_fits⟩
    unfold createCmd
    dsimp only
    rw [if_neg (not_not.mpr h.role), hconfig]
    show createApiKey env m _ _ table = _
    unfold createApiKey
    rw [if_neg (not_not.mpr h.role), if_neg h.scope, persistKey]
    rw [show newRow env m _ _ = rowAsked env m r from rfl, if_pos hfits, hinsert]
    rfl

/-- What a row gives, and whether it is not revoked. -/
def view (row : ApiKey) : Grant × Bool := (grantOf row, row.revokedAt.isNone)

/-- What a key is after a command that does not make it. -/
def viewed (lowering : Lowering) (id : ℕ) (v : Grant × Bool) (c : KeyCommand) : Grant × Bool :=
  ({ v.1 with defaults := redefined lowering id v.1.defaults c }, v.2 && !revokes id c)

theorem afterCommand_revoke (table : KeyTable) (keyId : ℕ) (now : Timestamp) :
    afterCommand env table (.revoke keyId now) = table.modify (revocation now) keyId := by
  cases hfind : table.find keyId with
  | none =>
    rw [Table.modify_of_find_eq_none _ hfind]
    simp only [afterCommand, KeyCommand.run, revokeCmd, revokeApiKey, hfind]
    rfl
  | some row =>
    simp only [afterCommand, KeyCommand.run, revokeCmd, revokeApiKey, hfind]
    rfl

theorem view_revoke (table : KeyTable) (keyId id : ℕ) (now : Timestamp) :
    ((afterCommand env table (.revoke keyId now)).find id).map view =
      ((table.find id).map view).map fun v => viewed env.lowering id v (.revoke keyId now) := by
  rw [afterCommand_revoke, Option.map_map]
  by_cases hid : keyId = id
  · subst hid
    rw [Table.find_modify_self, Option.map_map]
    refine Option.map_congr fun row _ => ?_
    cases hrevoked : row.revokedAt <;> simp [view, viewed, revocation, redefined, revokes, hrevoked,
      grantOf]
  · rw [Table.find_modify_of_ne _ hid]
    refine Option.map_congr fun row _ => ?_
    simp [view, viewed, redefined, revokes, hid]

/-- Defaults that nothing is given for stay. -/
theorem redefined_nothing {lowering : Lowering} {keyId id : ℕ} {given d : KeyOverrideDefaults}
    (h : nothingGiven given = true) :
    redefined lowering id d (.setDefaults keyId given false) = d := by
  have hgiven : given = KeyOverrideDefaults.none := by
    cases given
    simp only [nothingGiven, Bool.and_eq_true, Option.isNone_iff_eq_none] at h
    obtain ⟨⟨⟨⟨rfl, rfl⟩, rfl⟩, rfl⟩, rfl⟩ := h
    rfl
  subst hgiven
  simp only [redefined, Bool.false_eq_true, if_false]
  split
  · rfl
  · split <;> rfl

/-- Where there is nothing to set, or nobody to set it for, the keys stay. -/
theorem afterCommand_setDefaults {table : KeyTable} {keyId : ℕ} {given : KeyOverrideDefaults}
    {clear : Bool} (h : (!clear && nothingGiven given) = true ∨ table.find keyId = none ∨
      ¬(clear = true ∨ Valid env.lowering given)) :
    afterCommand env table (.setDefaults keyId given clear) = table := by
  rcases h with hnothing | hfind | hvalid
  · simp only [afterCommand, KeyCommand.run, setDefaultsCmd, if_pos hnothing]
    rfl
  · simp only [afterCommand, KeyCommand.run, setDefaultsCmd, setApiKeyDefaults, hfind]
    split <;> rfl
  · simp only [afterCommand, KeyCommand.run, setDefaultsCmd, setApiKeyDefaults]
    split
    · rfl
    · cases hfind : table.find keyId with
      | none => rfl
      | some row =>
        cases hmerge : mergeKeyConfig env.lowering env.repr row.configJson given clear with
        | error e =>
          simp only [hmerge]
          rfl
        | ok config => exact absurd (mergeKeyConfig_isOk.mp ⟨config, hmerge⟩) hvalid

/-- The defaults of a row after a command that sets some. -/
theorem view_of_defaults {row row' : ApiKey} {id keyId : ℕ} {given : KeyOverrideDefaults}
    {clear : Bool} (hrole : row'.role = row.role) (hscope : row'.scope = row.scope)
    (hallow : row'.allowScopeOverride = row.allowScopeOverride)
    (hrevoked : row'.revokedAt = row.revokedAt)
    (hdefaults : defaultsOf row'.configJson = redefined env.lowering id
      (defaultsOf row.configJson) (.setDefaults keyId given clear)) :
    view row' = viewed env.lowering id (view row) (.setDefaults keyId given clear) := by
  unfold view viewed grantOf
  rw [hrole, hscope, hallow, hrevoked, hdefaults]
  simp [revokes]

variable (env) in
theorem setDefaults_cases (table : KeyTable) (keyId : ℕ) (given : KeyOverrideDefaults)
    (clear : Bool) :
    (afterCommand env table (.setDefaults keyId given clear) = table ∧
        ((!clear && nothingGiven given) = true ∨ table.find keyId = none ∨
          ¬(clear = true ∨ Valid env.lowering given))) ∨
      ∃ row config, table.find keyId = some row ∧ (clear = true ∨ Valid env.lowering given) ∧
        mergeKeyConfig env.lowering env.repr row.configJson given clear = .ok config ∧
        afterCommand env table (.setDefaults keyId given clear) =
          table.modify (reconfiguration config) keyId := by
  by_cases hstay : (!clear && nothingGiven given) = true ∨ table.find keyId = none ∨
      ¬(clear = true ∨ Valid env.lowering given)
  · exact .inl ⟨afterCommand_setDefaults hstay, hstay⟩
  · obtain ⟨hsome, hrest⟩ := not_or.mp hstay
    obtain ⟨hfind, hrest⟩ := not_or.mp hrest
    have hvalid := not_not.mp hrest
    obtain ⟨row, hrow⟩ := Option.ne_none_iff_exists'.mp hfind
    obtain ⟨config, hconfig⟩ := mergeKeyConfig_isOk.mpr hvalid
    refine .inr ⟨row, config, hrow, hvalid, hconfig, ?_⟩
    simp only [afterCommand, KeyCommand.run, setDefaultsCmd, setApiKeyDefaults, hrow, if_neg hsome,
      hconfig]
    rfl

theorem view_setDefaults (table : KeyTable) (keyId id : ℕ) (given : KeyOverrideDefaults)
    (clear : Bool) :
    ((afterCommand env table (.setDefaults keyId given clear)).find id).map view =
      ((table.find id).map view).map fun v =>
        viewed env.lowering id v (.setDefaults keyId given clear) := by
  rw [Option.map_map]
  rcases setDefaults_cases env table keyId given clear with
    ⟨hafter, hstay⟩ | ⟨row, config, hfind, hvalid, hconfig, hafter⟩
  · rw [hafter]
    refine Option.map_congr fun row hrow => view_of_defaults rfl rfl rfl rfl ?_
    rcases hstay with hnothing | hnone | hvalid
    · obtain ⟨hclear, hgiven⟩ := Bool.and_eq_true_iff.mp hnothing
      obtain rfl : clear = false := by simpa using hclear
      exact (redefined_nothing hgiven).symm
    · have hid : keyId ≠ id := by
        rintro rfl
        rw [hnone] at hrow
        cases hrow
      exact (if_pos hid).symm
    · obtain ⟨hclear, hgiven⟩ := not_or.mp hvalid
      simp only [redefined, if_neg hclear, if_neg hgiven, ite_self]
  · rw [hafter]
    by_cases hid : keyId = id
    · subst hid
      rw [Table.find_modify_self, hfind, Option.map_some, Option.map_some, Option.map_some]
      refine congrArg some (view_of_defaults rfl rfl rfl rfl ?_)
      rw [show ((reconfiguration config).change row).configJson = config from rfl,
        mergeKeyConfig_eq_ok hconfig]
      simp only [redefined, ne_eq, not_true_eq_false, if_false]
      rcases hvalid with rfl | hgiven
      · rfl
      · rw [if_pos hgiven]
    · rw [Table.find_modify_of_ne _ hid]
      exact Option.map_congr fun row _ => view_of_defaults rfl rfl rfl rfl (if_pos hid).symm

theorem view_create (table : KeyTable) {m : Minted} {id : ℕ} (hid : m.id ≠ id) (r : KeyRequest) :
    (afterCommand env table (.create m r)).find id = table.find id := by
  cases hrun : createCmd env m r table with
  | error e =>
    simp only [afterCommand, KeyCommand.run, hrun]
    rfl
  | ok table' =>
    obtain ⟨-, hinsert⟩ := createCmd_eq_ok.mp hrun
    simp only [afterCommand, KeyCommand.run, hrun]
    exact (Table.find_of_insert hinsert id).trans (if_neg hid)

/-- A command that does not make a key does to it what is seen of it. -/
theorem view_afterCommand (table : KeyTable) {id : ℕ} {c : KeyCommand}
    (hid : ∀ m ∈ made c, m.id ≠ id) :
    ((afterCommand env table c).find id).map view =
      ((table.find id).map view).map fun v => viewed env.lowering id v c := by
  cases c with
  | create m r =>
    rw [view_create table (hid m rfl) r, Option.map_map]
    refine Option.map_congr fun row _ => ?_
    simp [viewed, redefined, revokes]
  | setDefaults keyId given clear => exact view_setDefaults table keyId id given clear
  | revoke keyId now => exact view_revoke table keyId id now

/-! A run of commands. -/

theorem view_run (table : KeyTable) {id : ℕ} {commands : List KeyCommand}
    (hid : ∀ c ∈ commands, ∀ m ∈ made c, m.id ≠ id) :
    ((commands.foldl (afterCommand env) table).find id).map view =
      ((table.find id).map view).map fun v => commands.foldl (viewed env.lowering id) v := by
  induction commands generalizing table with
  | nil =>
    rw [Option.map_map]
    rfl
  | cons c rest ih =>
    rw [List.forall_mem_cons] at hid
    rw [List.foldl_cons, ih _ hid.2, view_afterCommand table hid.1, Option.map_map]
    rfl

theorem foldl_viewed (lowering : Lowering) (id : ℕ) (commands : List KeyCommand)
    (v : Grant × Bool) : commands.foldl (viewed lowering id) v =
      ({ v.1 with defaults := commands.foldl (redefined lowering id) v.1.defaults },
        v.2 && commands.all fun c => !revokes id c) := by
  induction commands generalizing v with
  | nil => simp
  | cons c rest ih =>
    rw [List.foldl_cons, ih, viewed, List.foldl_cons, List.all_cons, Bool.and_assoc]

/-- A row that some command made, with what a text is looked up by. -/
def StemsFrom (env : KeyEnvironment) (commands : List KeyCommand) (row : ApiKey) : Prop :=
  ∃ c ∈ commands, ∃ m ∈ made c, row.id = m.id ∧ row.keyPrefix = keyPrefix m.token ∧
    row.keyHash = env.hasher.hash m.salt m.token

/-- What new rows have, and commands keep, every row has. -/
structure Kept (env : KeyEnvironment) (commands : List KeyCommand) (P : ApiKey → Prop) :
    Prop where
  created : ∀ m r, .create m r ∈ commands → Allowed env r → P (rowAsked env m r)
  revoked : ∀ row now, P row → P ((revocation now).change row)
  reconfigured : ∀ row given clear config,
    mergeKeyConfig env.lowering env.repr row.configJson given clear = .ok config →
      P row → P ((reconfiguration config).change row)

theorem kept_modify {P : ApiKey → Prop} {table : KeyTable} {change : Table.Change ApiKey.id}
    {id : ℕ} (h : ∀ row ∈ table.rows, P row)
    (hchange : ∀ row ∈ table.rows, row.id = id → P (change.change row)) :
    ∀ row ∈ (table.modify change id).rows, P row := by
  rw [Table.rows_modify, List.forall_mem_map]
  intro row hrow
  unfold Table.Change.at
  split
  · rename_i hid
    exact hchange row hrow hid
  · exact h row hrow

theorem Kept.step {commands : List KeyCommand} {P : ApiKey → Prop} (hkept : Kept env commands P)
    {c : KeyCommand} (hc : c ∈ commands) {table : KeyTable} (h : ∀ row ∈ table.rows, P row) :
    ∀ row ∈ (afterCommand env table c).rows, P row := by
  cases c with
  | create m r =>
    cases hrun : createCmd env m r table with
    | error e =>
      simp only [afterCommand, KeyCommand.run, hrun]
      exact h
    | ok table' =>
      obtain ⟨hallowed, hinsert⟩ := createCmd_eq_ok.mp hrun
      simp only [afterCommand, KeyCommand.run, hrun]
      intro row hrow
      rw [show (Except.ok table').toOption.getD _ = table' from rfl,
        (Table.insert_eq_some.mp hinsert).2, List.mem_append, List.mem_singleton] at hrow
      rcases hrow with hrow | rfl
      · exact h row hrow
      · exact hkept.created m r hc hallowed
  | setDefaults keyId given clear =>
    rcases setDefaults_cases env table keyId given clear with
      ⟨hsame, -⟩ | ⟨found, config, hfind, -, hconfig, hchanged⟩
    · rw [hsame]
      exact h
    · rw [hchanged]
      refine kept_modify h fun row hrow hid => ?_
      obtain ⟨hfound, hid'⟩ := Table.find_eq_some.mp hfind
      obtain rfl : found = row := Table.eq_of_key hfound hrow (hid'.trans hid.symm)
      exact hkept.reconfigured found given clear config hconfig (h found hrow)
  | revoke keyId now =>
    rw [afterCommand_revoke]
    exact kept_modify h fun row hrow _ => hkept.revoked row now (h row hrow)

theorem Kept.run {commands : List KeyCommand} {P : ApiKey → Prop} (hkept : Kept env commands P) :
    ∀ row ∈ (keysAfter env commands).rows, P row := by
  suffices hrest : ∀ rest : List KeyCommand, (∀ c ∈ rest, c ∈ commands) → ∀ table : KeyTable,
      (∀ row ∈ table.rows, P row) → ∀ row ∈ (rest.foldl (afterCommand env) table).rows, P row from
    hrest commands (fun _ h => h) Table.empty fun row h => absurd h List.not_mem_nil
  intro rest
  induction rest with
  | nil => exact fun _ table h => h
  | cons c rest ih =>
    intro hmem table h
    rw [List.forall_mem_cons] at hmem
    exact ih hmem.2 _ (hkept.step hmem.1 h)

variable (env) in
/-- Every row stems from a command of the run. -/
theorem stemsFrom_run (commands : List KeyCommand) :
    ∀ row ∈ (keysAfter env commands).rows, StemsFrom env commands row :=
  Kept.run {
    created := fun m _ hc _ => ⟨_, hc, m, rfl, rfl, rfl, rfl⟩
    revoked := fun _ _ h => h
    reconfigured := fun _ _ _ _ _ h => h }

variable (env) in
/-- Whatever is stored as the defaults of a key is valid. -/
theorem valid_run (hkeeps : KeepsProviders env.lowering) (commands : List KeyCommand) :
    ∀ row ∈ (keysAfter env commands).rows, Valid env.lowering (defaultsOf row.configJson) :=
  Kept.run {
    created := fun m r _ h => by
      rw [show defaultsOf _ = (grantOf (rowAsked env m r)).defaults from rfl, grantOf_rowAsked]
      exact h.defaults.normalized hkeeps
    revoked := fun _ _ h => h
    reconfigured := fun _ _ _ _ hconfig h => valid_merged hkeeps hconfig h }

/-! Looking up a key. -/

theorem mem_of_lookupApiKey {table : KeyTable} {token : String} {row : ApiKey}
    (h : lookupApiKey env table token = some row) : row ∈ table.rows :=
  (List.mem_filter.mp ((env.engine.2 _).mem_iff.mp (List.mem_of_find?_eq_some h))).1

section Fresh

variable {commands : List KeyCommand} (hfresh : Fresh commands)

include hfresh

theorem Fresh.eq_of_token {m m' : Minted} (hm : m ∈ commands.filterMap made)
    (hm' : m' ∈ commands.filterMap made) (h : m.token = m'.token) : m = m' :=
  List.inj_on_of_nodup_map hfresh.tokens hm hm' h

theorem Fresh.eq_of_id {m m' : Minted} (hm : m ∈ commands.filterMap made)
    (hm' : m' ∈ commands.filterMap made) (h : m.id = m'.id) : m = m' :=
  List.inj_on_of_nodup_map hfresh.ids hm hm' h

/-- The row that a text is looked up in is that of the key with this text. -/
theorem lookupApiKey_eq_some {token : String} {row : ApiKey} :
    lookupApiKey env (keysAfter env commands) token = some row ↔
      row ∈ (keysAfter env commands).rows ∧ row.revokedAt = none ∧
        ∃ m ∈ commands.filterMap made, m.token = token ∧ row.id = m.id := by
  have hfound : ∀ row', lookupApiKey env (keysAfter env commands) token = some row' →
      row' ∈ (keysAfter env commands).rows ∧ row'.revokedAt = none ∧
        ∃ m ∈ commands.filterMap made, m.token = token ∧ row'.id = m.id := by
    intro row' h
    have hrow := mem_of_lookupApiKey h
    have hcond := List.find?_some h
    simp only [Bool.and_eq_true, Option.isNone_iff_eq_none] at hcond
    obtain ⟨c, hc, m, hm, hid, -, hhash⟩ := stemsFrom_run env commands row' hrow
    refine ⟨hrow, hcond.1.1, m, List.mem_filterMap.mpr ⟨c, hc, hm⟩, ?_, hid⟩
    have hverify := hcond.2
    rw [hhash, env.hasher.verify_hash, beq_iff_eq] at hverify
    exact hverify.symm
  constructor
  · exact hfound row
  · rintro ⟨hrow, hlive, m, hm, rfl, hid⟩
    obtain ⟨c, hc, m', hm', hid', hstart, hhash⟩ := stemsFrom_run env commands row hrow
    obtain rfl : m' = m :=
      hfresh.eq_of_id (List.mem_filterMap.mpr ⟨c, hc, hm'⟩) hm (hid'.symm.trans hid)
    cases hlookup : lookupApiKey env (keysAfter env commands) m'.token with
    | none =>
      have hmem : row ∈ env.engine.1 ((keysAfter env commands).rows.filter fun row =>
          row.keyPrefix == keyPrefix m'.token && row.revokedAt.isNone) := by
        refine (env.engine.2 _).mem_iff.mpr (List.mem_filter.mpr ⟨hrow, ?_⟩)
        simp [hstart, hlive]
      have hno := List.find?_eq_none.mp hlookup row hmem
      simp [hstart, hlive, hhash, env.hasher.verify_hash] at hno
    | some row' =>
      obtain ⟨hrow', -, m'', hm'', htoken, hid''⟩ := hfound row' hlookup
      obtain rfl : m'' = m' := hfresh.eq_of_token hm'' hm htoken
      rw [Table.eq_of_key hrow' hrow (hid''.trans hid.symm)]

end Fresh

section Split

variable {before after : List KeyCommand} {m : Minted} {r : KeyRequest}
  (hfresh : Fresh (before ++ .create m r :: after))

include hfresh

theorem Fresh.ids_split : m.id ∉ (before.filterMap made).map Minted.id ∧
    m.id ∉ (after.filterMap made).map Minted.id := by
  have hids := hfresh.ids
  rw [List.filterMap_append, List.map_append, show (KeyCommand.create m r :: after).filterMap made =
    m :: after.filterMap made from rfl, List.map_cons, List.nodup_append] at hids
  obtain ⟨-, hlater, hapart⟩ := hids
  refine ⟨fun hmem => hapart _ hmem _ List.mem_cons_self rfl, (List.nodup_cons.mp hlater).1⟩

/-- There is no row for a key before it is made. -/
theorem Fresh.not_mem_before : m.id ∉ (keysAfter env before).keys := by
  intro hmem
  obtain ⟨row, hrow, hid⟩ := List.mem_map.mp hmem
  obtain ⟨c, hc, m', hm', hid', -⟩ := stemsFrom_run env before row hrow
  refine hfresh.ids_split.1 ?_
  rw [← hid, hid']
  exact List.mem_map_of_mem (List.mem_filterMap.mpr ⟨c, hc, hm'⟩)

theorem Fresh.find_run : ((keysAfter env (before ++ .create m r :: after)).find m.id).map view =
    (((afterCommand env (keysAfter env before) (.create m r)).find m.id).map view).map fun v =>
      after.foldl (viewed env.lowering m.id) v := by
  have hrun : keysAfter env (before ++ .create m r :: after) =
      after.foldl (afterCommand env) (afterCommand env (keysAfter env before) (.create m r)) := by
    rw [keysAfter, List.foldl_append]
    rfl
  rw [hrun, view_run]
  intro c hc m' hm' hid
  refine hfresh.ids_split.2 ?_
  rw [← hid]
  exact List.mem_map_of_mem (List.mem_filterMap.mpr ⟨c, hc, hm'⟩)

theorem Fresh.find_created (h : Allowed env r) :
    (afterCommand env (keysAfter env before) (.create m r)).find m.id =
      some (rowAsked env m r) := by
  have habsent : (rowAsked env m r).id ∉ (keysAfter env before).keys := hfresh.not_mem_before
  obtain ⟨table', hinsert⟩ := Table.exists_insert habsent
  simp only [afterCommand, KeyCommand.run, createCmd_eq_ok.mpr ⟨h, hinsert⟩]
  exact (Table.find_of_insert hinsert m.id).trans (if_pos rfl)

theorem Fresh.find_refused (h : ¬Allowed env r) :
    (afterCommand env (keysAfter env before) (.create m r)).find m.id = none := by
  have habsent : m.id ∉ (keysAfter env before).keys := hfresh.not_mem_before
  have hnone : (keysAfter env before).find m.id = none := by
    cases hfind : (keysAfter env before).find m.id with
    | none => rfl
    | some row =>
      obtain ⟨hrow, hid⟩ := Table.find_eq_some.mp hfind
      exact absurd (hid ▸ List.mem_map_of_mem hrow) habsent
  cases hrun : createCmd env m r (keysAfter env before) with
  | error e =>
    simp only [afterCommand, KeyCommand.run, hrun]
    exact hnone
  | ok table' => exact absurd (createCmd_eq_ok.mp hrun).1 h

/-- What is seen of a key after the run that makes it. -/
theorem Fresh.view_key (v : Grant × Bool) :
    ((keysAfter env (before ++ .create m r :: after)).find m.id).map view = some v ↔
      Allowed env r ∧ v.1 = { grantAsked env r with
          defaults := after.foldl (redefined env.lowering m.id) (grantAsked env r).defaults } ∧
        v.2 = after.all fun c => !revokes m.id c := by
  rw [hfresh.find_run]
  by_cases h : Allowed env r
  · rw [hfresh.find_created h, Option.map_some, Option.map_some, foldl_viewed,
      show view (rowAsked env m r) = (grantOf (rowAsked env m r), true) from rfl, grantOf_rowAsked,
      Option.some.injEq, Prod.ext_iff]
    simp only [h, true_and, Bool.true_and, eq_comm]
  · rw [hfresh.find_refused h]
    simp [h]

end Split

/-- A text is looked up with the grant of the key that it is, after every run. -/
theorem lookupApiKey_grant {commands : List KeyCommand} (hfresh : Fresh commands) {token : String}
    {g : Grant} : (lookupApiKey env (keysAfter env commands) token).map grantOf = some g ↔
      Holds env commands token g := by
  rw [Option.map_eq_some_iff]
  constructor
  · rintro ⟨row, hrow, rfl⟩
    obtain ⟨hmem, hlive, m, hm, rfl, hid⟩ := (lookupApiKey_eq_some hfresh).mp hrow
    obtain ⟨c, hc, hmade⟩ := List.mem_filterMap.mp hm
    obtain ⟨before, after, rfl⟩ := List.append_of_mem hc
    cases c with
    | setDefaults keyId given clear => cases hmade
    | revoke keyId now => cases hmade
    | create m' r =>
      obtain rfl : m' = m := Option.some.inj hmade
      have hfind := Table.find_eq_some.mpr ⟨hmem, hid⟩
      obtain ⟨hallowed, hgrant, hall⟩ := (hfresh.view_key (view row)).mp (by rw [hfind]; rfl)
      refine ⟨before, m', r, after, rfl, rfl, hallowed, fun c hc => ?_, hgrant⟩
      have hnone : (view row).2 = true := by
        unfold view
        rw [hlive]
        rfl
      rw [hnone] at hall
      simpa using List.all_eq_true.mp hall.symm c hc
  · rintro ⟨before, m, r, after, rfl, rfl, hallowed, hnone, rfl⟩
    have hall : true = after.all fun c => !revokes m.id c :=
      (List.all_eq_true.mpr fun c hc => by rw [hnone c hc]; rfl).symm
    have hview : ((keysAfter env (before ++ .create m r :: after)).find m.id).map view =
        some (_, true) := (hfresh.view_key (_, true)).mpr ⟨hallowed, rfl, hall⟩
    obtain ⟨row, hfind, hrow⟩ := Option.map_eq_some_iff.mp hview
    obtain ⟨hmem, hid⟩ := Table.find_eq_some.mp hfind
    have hlive : row.revokedAt.isNone = true := congrArg Prod.snd hrow
    refine ⟨row, (lookupApiKey_eq_some hfresh).mpr ⟨hmem, Option.isNone_iff_eq_none.mp hlive, m,
      ?_, rfl, hid⟩, congrArg Prod.fst hrow⟩
    exact List.mem_filterMap.mpr ⟨_, List.mem_append_right _ List.mem_cons_self, rfl⟩

end Raglogs.ApiKeyLaws

import Mathlib.Data.List.Nodup

namespace LlmGateway

/-- `store.APIKey` without the columns that no caller reads back: the prefix,
the creation time and the time of last use. -/
structure APIKey where
  id : String
  keyHash : String
  orgID : String
  name : String
  scopes : List String
  rateLimitRPM : Int
  rateLimitTPM : Int
  isActive : Bool
  expiresAt : Option Int
deriving DecidableEq, Repr

/-- The table `api_keys`: `id` is the primary key and `key_hash` is unique. -/
structure APIKeyStore where
  rows : List APIKey
  ids : (rows.map APIKey.id).Nodup
  hashes : (rows.map APIKey.keyHash).Nodup

namespace APIKeyStore

variable {s : APIKeyStore} {row : APIKey} {id hash : String} {now : Int}

def usable (row : APIKey) (hash : String) (now : Int) : Bool :=
  row.keyHash = hash && row.isActive && row.expiresAt.all fun t => now < t

theorem active_of_usable (usable_ : usable row hash now = true) : row.keyHash = hash ∧ row.isActive = true := by
  simp only [usable, Bool.and_eq_true, decide_eq_true_eq] at usable_
  exact usable_.1

/-- No two rows have one hash. -/
theorem eq_of_keyHash {other : APIKey} (member : row ∈ s.rows) (member' : other ∈ s.rows)
    (same : row.keyHash = other.keyHash) : row = other :=
  List.inj_on_of_nodup_map s.hashes member member' same

/-- What is usable now was usable before. -/
theorem usable_of_le {now' : Int} (usable_ : usable row hash now' = true) (earlier : now ≤ now') :
    usable row hash now = true := by
  simp only [usable, Bool.and_eq_true, Option.all_eq_true, decide_eq_true_eq] at usable_ ⊢
  refine ⟨usable_.1, fun t limit => ?_⟩
  have later := usable_.2 t limit
  omega

def getByHash (s : APIKeyStore) (hash : String) (now : Int) : Option APIKey :=
  s.rows.find? fun row => usable row hash now

theorem of_getByHash (found : s.getByHash hash now = some row) : row ∈ s.rows ∧ usable row hash now = true :=
  ⟨List.mem_of_find?_eq_some found, List.find?_some (p := fun row => usable row hash now) found⟩

def getByID (s : APIKeyStore) (id : String) : Option APIKey := s.rows.find? fun row => row.id = id

def deactivate (id : String) (row : APIKey) : APIKey :=
  if row.id = id then { row with isActive := false } else row

theorem id_deactivate (id : String) (row : APIKey) : (deactivate id row).id = row.id := by
  unfold deactivate
  split <;> rfl

theorem keyHash_deactivate (id : String) (row : APIKey) : (deactivate id row).keyHash = row.keyHash := by
  unfold deactivate
  split <;> rfl

/-- `Revoke` on an id that names no row changes nothing. -/
def revoke (s : APIKeyStore) (id : String) : APIKeyStore where
  rows := s.rows.map (deactivate id)
  ids := by
    rw [List.map_map, Function.comp_def]
    simpa only [id_deactivate] using s.ids
  hashes := by
    rw [List.map_map, Function.comp_def]
    simpa only [keyHash_deactivate] using s.hashes

/-- The ids and hashes of the table, which no revocation changes. -/
def keys (s : APIKeyStore) : List (String × String) := s.rows.map fun row => (row.id, row.keyHash)

@[simp] theorem keys_revoke (s : APIKeyStore) (id : String) : (s.revoke id).keys = s.keys := by
  simp only [keys, revoke, List.map_map, Function.comp_def, id_deactivate, keyHash_deactivate]

def Inactive (s : APIKeyStore) (hash : String) : Prop := ∀ row ∈ s.rows, row.keyHash = hash → row.isActive = false

theorem getByHash_of_inactive (off : s.Inactive hash) (now : Int) : s.getByHash hash now = none := by
  refine List.find?_eq_none.mpr fun row member => ?_
  by_cases same : row.keyHash = hash
  · simp [usable, off row member same]
  · simp [usable, same]

theorem getByID_of_key (key : (id, hash) ∈ s.keys) : ∃ row, s.getByID id = some row ∧ row.keyHash = hash := by
  obtain ⟨row, member, same⟩ := List.mem_map.mp key
  obtain ⟨rfl, rfl⟩ := Prod.mk.inj same
  cases found : s.getByID row.id with
  | none =>
    have missing := List.find?_eq_none.mp found row member
    simp at missing
  | some other =>
    have sameID : other.id = row.id := by simpa using List.find?_some found
    have sameRow : other = row := List.inj_on_of_nodup_map s.ids (List.mem_of_find?_eq_some found) member sameID
    exact ⟨other, rfl, congrArg APIKey.keyHash sameRow⟩

theorem Inactive.revoke (off : s.Inactive hash) (id : String) : (s.revoke id).Inactive hash := by
  intro row member same
  obtain ⟨old, oldMember, rfl⟩ := List.mem_map.mp member
  rw [keyHash_deactivate] at same
  unfold deactivate
  split
  · rfl
  · exact off old oldMember same

/-- `Revoke` switches the key off. -/
theorem inactive_revoke (key : (id, hash) ∈ s.keys) : (s.revoke id).Inactive hash := by
  intro row member same
  obtain ⟨old, oldMember, rfl⟩ := List.mem_map.mp member
  obtain ⟨named, namedMember, both⟩ := List.mem_map.mp key
  obtain ⟨rfl, rfl⟩ := Prod.mk.inj both
  rw [keyHash_deactivate] at same
  have sameRow : old = named := eq_of_keyHash oldMember namedMember same
  rw [sameRow, deactivate, if_pos rfl]

end APIKeyStore

end LlmGateway

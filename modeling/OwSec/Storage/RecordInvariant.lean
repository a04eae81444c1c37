import Mathlib.Data.Set.Insert
import OwSec.Storage.Coherence

/-!
# Invariants of single records

Many properties of the service speak about one user record at a time: whatever its history,
each record of a table is well formed in some sense.  A request reads records from the
table or from the cache in front of it, edits one of them, and writes it to both, so such a
property is kept by every request whose edits keep it, whether or not cache and table agree.

`Population.records` collects the records of the table and of the cache, and each operation
of the store is described by what it adds to that set.  `RecordInvariant` is a property of
the records of each population and of the enrolments of authenticators, which feed secrets
into the records; `Storage.Satisfies` says that it holds throughout the storage.
-/

namespace OwSec

open SecurityObjects Kit

namespace Population

variable (svc : Service) {p : Population}

/-- The records of the table and of the cache. -/
def records (p : Population) : Set UserInfo :=
  {u | u ∈ p.users.rows ∨ ∃ k, p.cacheById.lookup k = some u}

/-- Where the cache fits the table, every copy of a record is the row, up to the last login. -/
theorem Coherent.sameButLogin {p : Population} (h : p.Coherent) {v w : UserInfo}
    (hw : p.users.find? v.id = some w) (hv : v ∈ p.records) : SameButLogin v w := by
  rcases hv with hrow | ⟨k, hcached⟩
  · have hfind := p.users.mem_rows_iff.mp hrow
    rw [hw] at hfind
    exact Option.some.inj hfind ▸ .refl v
  · obtain ⟨row, hrow, hsame⟩ := h k v hcached
    have hkey : row.id = k := Table.key_of_find? hrow
    rw [← hkey, ← hsame.id_eq, hw] at hrow
    exact Option.some.inj hrow ▸ hsame

/-- A record that is found in the table is one of the records. -/
theorem mem_records_of_find? {k : String} {u : UserInfo} (h : p.users.find? k = some u) :
    u ∈ p.records := .inl (p.users.find?_eq_some_iff.mp h).1

/-- The records are determined by the table and the cache. -/
theorem records_congr {q : Population} (hu : q.users = p.users) (hc : q.cacheById = p.cacheById) :
    q.records = p.records := by
  unfold records
  rw [hu, hc]

/-- Caching a record adds at most that record. -/
theorem records_updateCache (u : UserInfo) :
    (p.updateCache svc u).records ⊆ insert u p.records := by
  rintro v (hv | ⟨k, hv⟩)
  · exact .inr (.inl hv)
  · change (p.cacheById.insert u.id u : Cache String UserInfo).lookup k = some v at hv
    rw [Cache.lookup_insert_eq] at hv
    split at hv
    · exact .inl (Option.some.inj hv).symm
    · exact .inr (.inr ⟨k, hv⟩)

/-- Caching one of the records adds none. -/
theorem records_updateCache_of_mem {u : UserInfo} (hu : u ∈ p.records) :
    (p.updateCache svc u).records ⊆ p.records := by
  intro v hv
  rcases records_updateCache svc u hv with rfl | hv
  · exact hu
  · exact hv

/-! ## Lookups -/

/-- A lookup by identifier finds one of the records. -/
theorem getUserById_mem {id : String} {u : UserInfo} (h : (p.getUserById svc id).1 = some u) :
    u ∈ p.records := by
  unfold getUserById getRecordById at h
  split at h
  · rename_i v hv
    cases h
    exact .inr ⟨id, hv⟩
  · split at h
    · rename_i v hv
      cases h
      exact mem_records_of_find? hv
    · cases h

/-- A lookup by identifier adds no records. -/
theorem records_getUserById (id : String) : (p.getUserById svc id).2.records ⊆ p.records := by
  unfold getUserById getRecordById
  split
  · exact subset_rfl
  · split
    · rename_i u hu
      exact records_updateCache_of_mem svc (mem_records_of_find? hu)
    · exact subset_rfl

/-- A lookup by e-mail finds one of the records. -/
theorem getUserByEmail_mem {email : String} {u : UserInfo}
    (h : (p.getUserByEmail svc email).1 = some u) : u ∈ p.records := by
  unfold getUserByEmail getRecordByEMail getFromCacheByEMail at h
  split at h
  · rename_i v hv
    cases h
    split at hv
    · rename_i id _
      exact .inr ⟨id, hv⟩
    · cases hv
  · split at h
    · rename_i v hv
      cases h
      exact .inl (List.mem_of_find?_eq_some hv)
    · cases h

/-- A lookup by e-mail adds no records. -/
theorem records_getUserByEmail (email : String) :
    (p.getUserByEmail svc email).2.records ⊆ p.records := by
  unfold getUserByEmail getRecordByEMail
  split
  · exact subset_rfl
  · split
    · rename_i u hu
      exact records_updateCache_of_mem svc (.inl (List.mem_of_find?_eq_some hu))
    · exact subset_rfl

/-! ## Writing -/

/-- A row that an update leaves is the new one or an old one. -/
theorem mem_rows_of_update {t t' : Table String UserInfo UserInfo.id} {k : String}
    {r v : UserInfo} (h : t.update k r = some t') (hv : v ∈ t'.rows) : v = r ∨ v ∈ t.rows := by
  rcases hk : t.find? k with _ | r₀
  · rw [Table.update_of_find?_eq_none r hk] at h
    cases h
    exact .inr hv
  · have hfind := t'.mem_rows_iff.mp hv
    rw [Table.find?_update_row h hk] at hfind
    split at hfind
    · exact .inl (Option.some.inj hfind).symm
    · split at hfind
      · cases hfind
      · exact .inr (t.find?_eq_some_iff.mp hfind).1

/-- An update adds at most the record that is written. -/
theorem records_updateUserInfo (id : String) (u : UserInfo) :
    (p.updateUserInfo svc id u).2.records ⊆ insert u p.records := by
  unfold updateUserInfo updateRecord
  split
  · rename_i users hup
    intro v hv
    rcases records_updateCache svc u hv with rfl | hv | hv
    · exact .inl rfl
    · rcases mem_rows_of_update hup hv with rfl | hv
      · exact .inl rfl
      · exact .inr (.inl hv)
    · exact .inr (.inr hv)
  · exact fun v hv ↦ .inr hv

/-- An insertion adds at most the record that is inserted. -/
theorem records_createRecord (u : UserInfo) :
    (p.createRecord u).2.records ⊆ insert u p.records := by
  unfold createRecord
  split
  · rename_i users hins
    rintro v (hv | hv)
    · rcases Table.mem_rows_of_insert hins hv with rfl | hv
      · exact .inl rfl
      · exact .inr (.inl hv)
    · exact .inr (.inr hv)
  · exact fun v hv ↦ .inr hv

/-- A new record has the second factor that it is created with. -/
theorem newRecord_factor (m : Moment) (u : UserInfo) :
    (newRecord svc m u).userTypeProprietaryInfo = u.userTypeProprietaryInfo := by
  unfold newRecord
  simp only
  split <;> rfl

/-- Creating a user adds at most the new record, and answers it. -/
theorem records_createUser (m : Moment) (u : UserInfo) :
    (p.createUser svc m u).2.records ⊆ insert (newRecord svc m u) p.records := by
  have hlookup := records_getUserByEmail svc (p := p) (toLower u.email)
  unfold getUserByEmail at hlookup
  unfold createUser
  split
  · rename_i q hl
    rw [hl] at hlookup
    exact fun v hv ↦ .inr (hlookup hv)
  · rename_i q hl
    rw [hl] at hlookup
    have hcreate := records_createRecord (p := q) (newRecord svc m u)
    split <;>
    · rename_i q' hc
      rw [hc] at hcreate
      exact hcreate.trans (Set.insert_subset_insert hlookup)

/-- A creation that fails adds no record. -/
theorem records_createUser_none {m : Moment} {u : UserInfo}
    (h : (p.createUser svc m u).1 = none) : (p.createUser svc m u).2.records ⊆ p.records := by
  rcases createUser_cases svc (p := p) m u with heq | ⟨users, -, heq⟩
  · rw [heq]
    exact records_getUserByEmail svc (toLower u.email)
  · rw [heq] at h
    cases h

/-- A creation that succeeds has found the address free. -/
theorem free_of_createUser {m : Moment} {u new : UserInfo}
    (h : (p.createUser svc m u).1 = some new) :
    (p.getUserByEmail svc (toLower u.email)).1 = none := by
  unfold createUser at h
  unfold getUserByEmail
  split at h
  · cases h
  · rename_i hl
    exact congrArg Prod.fst hl

/-- The time of the last login is set in rows alone. -/
theorem records_setLastLogin (now : ℕ) (id : String) {u : UserInfo}
    (h : u ∈ (p.setLastLogin now id).records) :
    u ∈ p.records ∨ ∃ v ∈ p.records, u = { v with lastLogin := now } := by
  rcases h with hu | hu
  · obtain ⟨v, hv, rfl⟩ := List.mem_map.mp hu
    split
    · exact .inr ⟨v, .inl hv, rfl⟩
    · exact .inl (.inl hv)
  · exact .inl (.inr hu)

/-- A deletion adds no records. -/
theorem records_deleteUser (id : String) : (p.deleteUser id).records ⊆ p.records := by
  rintro v (hv | ⟨k, hv⟩)
  · exact .inl (List.mem_of_mem_filter hv)
  · exact .inr ⟨k, Cache.Evicts.erase _ _ _ _ hv⟩

end Population

/-! ## Invariants of a storage -/

/-- The fields of a record that carry its rights and its credentials. -/
structure RecordCore where
  id : String
  email : String
  userRole : UserRole
  userTypeProprietaryInfo : UserLoginLoginExtensions
  currentPassword : String
  lastPasswords : List String

/-- The core of a record. -/
def coreOf (u : UserInfo) : RecordCore where
  id := u.id
  email := u.email
  userRole := u.userRole
  userTypeProprietaryInfo := u.userTypeProprietaryInfo
  currentPassword := u.currentPassword
  lastPasswords := u.lastPasswords

/-- A property of the records of each population, which looks at their core alone, and of the
enrolments by user identifier. -/
structure RecordInvariant where
  record : Bool → UserInfo → Prop
  enrolment : String → TotpEntry → Prop
  insensitive : ∀ isSub u v, coreOf v = coreOf u → record isSub u → record isSub v

/-- Every record of the population satisfies the property. -/
def Population.All (P : UserInfo → Prop) (p : Population) : Prop := ∀ u ∈ p.records, P u

/-- The invariant holds throughout the storage. -/
structure Storage.Satisfies (I : RecordInvariant) (s : Storage) : Prop where
  records : ∀ isSub, (s.population isSub).All (I.record isSub)
  enrolments : ∀ id e, s.totp.lookup id = some e → I.enrolment id e

namespace Population

variable {svc : Service} {P : UserInfo → Prop} {p q : Population}

/-- What adds at most a record that satisfies the property keeps it. -/
theorem All.insert {u : UserInfo} (h : p.All P) (hq : q.records ⊆ insert u p.records) (hu : P u) :
    q.All P := by
  intro v hv
  rcases hq hv with rfl | hv
  · exact hu
  · exact h v hv

/-- What adds no records keeps the property. -/
theorem All.subset (h : p.All P) (hq : q.records ⊆ p.records) : q.All P := fun v hv ↦ h v (hq hv)

/-- What keeps the table and the cache keeps the property. -/
theorem All.congr (h : p.All P) (hu : q.users = p.users) (hc : q.cacheById = p.cacheById) :
    q.All P := h.subset (records_congr hu hc).subset

/-- Setting the time of the last login keeps a property to which it does not matter. -/
theorem All.setLastLogin (h : p.All P) (hP : ∀ u now, P u → P { u with lastLogin := now })
    (now : ℕ) (id : String) : (p.setLastLogin now id).All P := by
  intro u hu
  rcases records_setLastLogin now id hu with hu | ⟨v, hv, rfl⟩
  · exact h u hu
  · exact hP v now (h v hv)

/-- A record that a check of a token answers is one of the records, and the check adds none. -/
theorem All.checkToken (h : p.All P) (now : ℕ) (token : String) :
    (p.checkToken svc now token).2.All P := by
  unfold Population.checkToken
  split
  · exact h.congr rfl rfl
  · rename_i t tokens hl
    have hp : ({ p with tokens } : Population).All P := h.congr rfl rfl
    simp only
    split
    · exact hp
    · have hlookup := hp.subset (records_getUserById svc t.userName)
      split <;>
      · rename_i hu
        rw [hu] at hlookup
        exact hlookup

/-- A new token leaves the records, up to the time of the last login. -/
theorem All.createTokenFor (h : p.All P) (hP : ∀ u now, P u → P { u with lastLogin := now })
    (m : Moment) (userName : String) (ui : UserInfoAndPolicy) :
    (p.createTokenFor svc m userName ui).2.All P := by
  refine (h.setLastLogin hP m.now ui.userinfo.id).congr ?_ ?_
  all_goals
    unfold Population.createTokenFor addLogin
    simp only
    split <;> rfl

/-- The end of a login leaves the records, up to the time of the last login. -/
theorem All.completeAuthorize (h : p.All P) (hP : ∀ u now, P u → P { u with lastLogin := now })
    (m : Moment) (userName : String) (user : UserInfo) :
    (p.completeAuthorize svc m userName user).2.All P :=
  (h.setLastLogin hP m.now user.id).createTokenFor hP m userName _

end Population

end OwSec

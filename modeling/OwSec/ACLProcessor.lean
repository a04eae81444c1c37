import OwSec.SecurityObjects

/-!
# Access control

The predicates of `ACLProcessor.h`, over the caller and the record that the request is
about.  `Can` is the older table of operations, which the subscriber handlers use; the
user handlers use the predicates named after what they allow.

A predicate looks at the identifier, the creator and the role of the record and at nothing
else, so it gives the same verdict on two records that agree on these three.
-/

namespace OwSec

open SecurityObjects

namespace ACLProcessor

/-- `ACL_OPS`. -/
inductive ACLOps
  | READ | MODIFY | DELETE | CREATE
  deriving DecidableEq, Repr

/-- `IsRoot`. -/
def isRoot (user : UserInfo) : Bool := user.userRole == .ROOT

/-- `IsAdmin`. -/
def isAdmin (user : UserInfo) : Bool := user.userRole == .ADMIN

/-- `IsSelf`. -/
def isSelf (user target : UserInfo) : Bool := user.id == target.id

/-- `WasCreatedBy`. -/
def wasCreatedBy (user target : UserInfo) : Bool :=
  !target.createdBy.isEmpty && target.createdBy == user.id

/-- `IsNonRootTarget`. -/
def isNonRootTarget (target : UserInfo) : Bool := target.userRole != .ROOT

/-- The roles below `ROOT` and `PARTNER`. -/
def belowPartner (target : UserInfo) : Bool :=
  target.userRole != .ROOT && target.userRole != .PARTNER

/-- `Can`. -/
def can (user target : UserInfo) : ACLOps → Bool
  | .DELETE =>
    -- a user can delete themselves only if not root
    if user.id == target.id then user.userRole != .ROOT
    else
      match user.userRole with
      | .ROOT => true
      | .ADMIN => belowPartner target
      | .SUBSCRIBER => user.id == target.id
      | .CSR => false
      | .SYSTEM => belowPartner target
      | .INSTALLER => user.id == target.id
      | .NOC => target.userRole == .NOC
      | .ACCOUNTING => target.userRole == .ACCOUNTING
      | .PARTNER => target.userRole != .ROOT
      | .UNKNOWN => false
  | .READ => user.userRole == .ROOT || user.userRole == .ADMIN || user.userRole == .PARTNER
  | .CREATE =>
    match user.userRole with
    | .ROOT => true
    | .ADMIN => belowPartner target
    | .SUBSCRIBER => false
    | .CSR => target.userRole == .CSR
    | .SYSTEM => belowPartner target
    | .INSTALLER => target.userRole == .INSTALLER
    | .NOC => target.userRole == .NOC
    | .ACCOUNTING => target.userRole == .ACCOUNTING
    | .PARTNER => target.userRole != .ROOT
    | .UNKNOWN => false
  | .MODIFY =>
    match user.userRole with
    | .ROOT => true
    | .ADMIN => belowPartner target
    | .SUBSCRIBER => user.id == target.id
    | .CSR => target.userRole == .CSR
    | .SYSTEM => belowPartner target
    | .INSTALLER => target.userRole == .INSTALLER
    | .NOC => target.userRole == .NOC
    | .ACCOUNTING => target.userRole == .ACCOUNTING
    | .PARTNER => target.userRole != .ROOT
    | .UNKNOWN => false

/-- `CanReadUserRecord`. -/
def canReadUserRecord (user target : UserInfo) : Bool :=
  if isRoot user then true
  else if isSelf user target && isNonRootTarget target then true
  else if !isAdmin user then false
  else wasCreatedBy user target

/-- `CanCreateUserRecord`. -/
def canCreateUserRecord (user target : UserInfo) : Bool :=
  if isRoot user then true
  else if !isAdmin user then false
  else isNonRootTarget target && target.userRole != .PARTNER

/-- `CanDeleteUserRecord`. -/
def canDeleteUserRecord (user target : UserInfo) : Bool :=
  if isSelf user target then false
  else if isRoot user then true
  else if !isAdmin user then false
  else wasCreatedBy user target && isNonRootTarget target

/-- The body shared by `CanModifyUserRecord` and `CanResetUserMFA`. -/
def canWriteUserRecord (user target : UserInfo) : Bool :=
  if isRoot user then true
  else if isSelf user target then isNonRootTarget target
  else if !isAdmin user then false
  else isNonRootTarget target && wasCreatedBy user target

/-- `CanModifyUserRecord`. -/
def canModifyUserRecord := canWriteUserRecord

/-- `CanResetUserMFA`. -/
def canResetUserMFA := canWriteUserRecord

/-- `CanChangeUserRole`. -/
def canChangeUserRole (user target : UserInfo) (newRole : UserRole) : Bool :=
  if isSelf user target then false
  else if isRoot user then true
  else if !isAdmin user then false
  else newRole != .ROOT && isNonRootTarget target && wasCreatedBy user target

/-! ## What a verdict tells -/

section Verdicts

variable {user target target' : UserInfo}

/-- Two records that agree on what the predicates look at. -/
structure SameTarget (target target' : UserInfo) : Prop where
  id : target'.id = target.id
  createdBy : target'.createdBy = target.createdBy
  userRole : target'.userRole = target.userRole

theorem SameTarget.refl (target : UserInfo) : SameTarget target target := ⟨rfl, rfl, rfl⟩

theorem SameTarget.trans {target'' : UserInfo} (h : SameTarget target target')
    (h' : SameTarget target' target'') : SameTarget target target'' :=
  ⟨h'.id.trans h.id, h'.createdBy.trans h.createdBy, h'.userRole.trans h.userRole⟩

theorem SameTarget.isSelf (h : SameTarget target target') :
    isSelf user target' = isSelf user target := by
  rw [ACLProcessor.isSelf, ACLProcessor.isSelf, h.id]

theorem SameTarget.wasCreatedBy (h : SameTarget target target') :
    wasCreatedBy user target' = wasCreatedBy user target := by
  rw [ACLProcessor.wasCreatedBy, ACLProcessor.wasCreatedBy, h.createdBy]

theorem SameTarget.isNonRootTarget (h : SameTarget target target') :
    isNonRootTarget target' = isNonRootTarget target := by
  rw [ACLProcessor.isNonRootTarget, ACLProcessor.isNonRootTarget, h.userRole]

theorem SameTarget.canDeleteUserRecord (h : SameTarget target target') :
    canDeleteUserRecord user target' = canDeleteUserRecord user target := by
  unfold ACLProcessor.canDeleteUserRecord
  rw [h.isSelf, h.isNonRootTarget, h.wasCreatedBy]

theorem SameTarget.canModifyUserRecord (h : SameTarget target target') :
    canModifyUserRecord user target' = canModifyUserRecord user target := by
  unfold ACLProcessor.canModifyUserRecord canWriteUserRecord
  rw [h.isSelf, h.isNonRootTarget, h.wasCreatedBy]

theorem SameTarget.canChangeUserRole (h : SameTarget target target') (newRole : UserRole) :
    canChangeUserRole user target' newRole = canChangeUserRole user target newRole := by
  unfold ACLProcessor.canChangeUserRole
  rw [h.isSelf, h.isNonRootTarget, h.wasCreatedBy]

/-- Whether a record may be created depends on its role alone. -/
theorem canCreateUserRecord_congr (h : target'.userRole = target.userRole) :
    canCreateUserRecord user target' = canCreateUserRecord user target := by
  unfold canCreateUserRecord isNonRootTarget
  rw [h]

theorem isRoot_iff : isRoot user = true ↔ user.userRole = .ROOT := beq_iff_eq

theorem isAdmin_iff : isAdmin user = true ↔ user.userRole = .ADMIN := beq_iff_eq

theorem isSelf_iff : isSelf user target = true ↔ user.id = target.id := beq_iff_eq

theorem isNonRootTarget_iff : isNonRootTarget target = true ↔ target.userRole ≠ .ROOT :=
  bne_iff_ne

theorem createdBy_of_wasCreatedBy (h : wasCreatedBy user target = true) :
    target.createdBy = user.id := beq_iff_eq.mp (Bool.and_eq_true_iff.mp h).2

/-- Who is not `ROOT` reads themselves, or, as an `ADMIN`, what they created. -/
theorem of_canReadUserRecord (hroot : user.userRole ≠ .ROOT)
    (h : canReadUserRecord user target = true) :
    target.id = user.id ∨ target.createdBy = user.id := by
  unfold canReadUserRecord at h
  rw [if_neg (mt isRoot_iff.mp hroot)] at h
  split at h
  · rename_i hself
    exact .inl (isSelf_iff.mp (Bool.and_eq_true_iff.mp hself).1).symm
  · split at h
    · cases h
    · exact .inr (createdBy_of_wasCreatedBy h)

/-- Who is not `ROOT` creates only as an `ADMIN`, and only below `PARTNER`. -/
theorem of_canCreateUserRecord (hroot : user.userRole ≠ .ROOT)
    (h : canCreateUserRecord user target = true) :
    user.userRole = .ADMIN ∧ target.userRole ≠ .ROOT ∧ target.userRole ≠ .PARTNER := by
  unfold canCreateUserRecord at h
  rw [if_neg (mt isRoot_iff.mp hroot)] at h
  split at h
  · cases h
  · rename_i hadmin
    obtain ⟨hnonroot, hpartner⟩ := Bool.and_eq_true_iff.mp h
    exact ⟨isAdmin_iff.mp (by simpa using hadmin), isNonRootTarget_iff.mp hnonroot,
      bne_iff_ne.mp hpartner⟩

/-- Nobody deletes themselves, and who is not `ROOT` deletes only as an `ADMIN`, and only
what they created below `ROOT`. -/
theorem of_canDeleteUserRecord (h : canDeleteUserRecord user target = true) :
    user.id ≠ target.id ∧ (user.userRole = .ROOT ∨
      user.userRole = .ADMIN ∧ target.createdBy = user.id ∧ target.userRole ≠ .ROOT) := by
  unfold canDeleteUserRecord at h
  split at h
  · cases h
  · rename_i hself
    refine ⟨mt isSelf_iff.mpr hself, ?_⟩
    split at h
    · rename_i hroot
      exact .inl (isRoot_iff.mp hroot)
    · split at h
      · cases h
      · rename_i hadmin
        obtain ⟨hcreated, hnonroot⟩ := Bool.and_eq_true_iff.mp h
        exact .inr ⟨isAdmin_iff.mp (by simpa using hadmin), createdBy_of_wasCreatedBy hcreated,
          isNonRootTarget_iff.mp hnonroot⟩

/-- Who is not `ROOT` writes no `ROOT` record, and only themselves or, as an `ADMIN`, what
they created. -/
theorem of_canModifyUserRecord (hroot : user.userRole ≠ .ROOT)
    (h : canModifyUserRecord user target = true) :
    target.userRole ≠ .ROOT ∧ (target.id = user.id ∨ target.createdBy = user.id) := by
  unfold canModifyUserRecord canWriteUserRecord at h
  rw [if_neg (mt isRoot_iff.mp hroot)] at h
  split at h
  · rename_i hself
    exact ⟨isNonRootTarget_iff.mp h, .inl (isSelf_iff.mp hself).symm⟩
  · split at h
    · cases h
    · obtain ⟨hnonroot, hcreated⟩ := Bool.and_eq_true_iff.mp h
      exact ⟨isNonRootTarget_iff.mp hnonroot, .inr (createdBy_of_wasCreatedBy hcreated)⟩

/-- Nobody changes their own role; who is not `ROOT` changes roles only as an `ADMIN`, of
what they created, from and to roles other than `ROOT`. -/
theorem of_canChangeUserRole {newRole : UserRole} (h : canChangeUserRole user target newRole = true) :
    user.id ≠ target.id ∧ (user.userRole = .ROOT ∨
      user.userRole = .ADMIN ∧ newRole ≠ .ROOT ∧ target.userRole ≠ .ROOT ∧
        target.createdBy = user.id) := by
  unfold canChangeUserRole at h
  split at h
  · cases h
  · rename_i hself
    refine ⟨mt isSelf_iff.mpr hself, ?_⟩
    split at h
    · rename_i hroot
      exact .inl (isRoot_iff.mp hroot)
    · split at h
      · cases h
      · rename_i hadmin
        obtain ⟨hroles, hcreated⟩ := Bool.and_eq_true_iff.mp h
        obtain ⟨hnew, hnonroot⟩ := Bool.and_eq_true_iff.mp hroles
        exact .inr ⟨isAdmin_iff.mp (by simpa using hadmin), bne_iff_ne.mp hnew,
          isNonRootTarget_iff.mp hnonroot, createdBy_of_wasCreatedBy hcreated⟩

end Verdicts

end ACLProcessor

end OwSec

import Mathlib.Data.Set.Basic
import OwSec.Access.UserRuns

/-!
# The ceiling on roles

Who is neither `ROOT` nor `PARTNER` should not be able to make somebody `ROOT` or
`PARTNER`.  Creating keeps to this: `CanCreateUserRecord` refuses both roles.  Changing a
role does not: `CanChangeUserRole` refuses `ROOT` and overlooks `PARTNER`, so an `ADMIN`
promotes what they created.  That request, `Promotes`, is the only way through the
ceiling.
-/

namespace OwSec

open SecurityObjects Kit RestApi ACLProcessor

/-- The users with one of the two highest roles. -/
def elevated (s : Storage) : Set String :=
  {id | ∃ u, s.user.users.find? id = some u ∧ (u.userRole = .ROOT ∨ u.userRole = .PARTNER)}

/-- A role other than the two highest. -/
def BelowPartner (u : UserInfo) : Prop := u.userRole ≠ .ROOT ∧ u.userRole ≠ .PARTNER

instance (u : UserInfo) : Decidable (BelowPartner u) := inferInstanceAs (Decidable (_ ∧ _))

/-- An `ADMIN` asks to make a record that they created, and that is neither their own nor
elevated already, a `PARTNER`. -/
def Promotes (svc : Service) (s : Storage) : UserEvent → Prop
  | .call c =>
    c.list = false ∧ c.internal = false ∧ c.request.method = .PUT ∧
      askedRole svc c.request = some .PARTNER ∧
      ∃ caller ∈ c.caller svc s, caller.userRole = .ADMIN ∧
        ∃ row, s.user.users.find? (c.request.getBinding "id") = some row ∧ BelowPartner row ∧
          row.createdBy = caller.id ∧ row.id ≠ caller.id
  | .elsewhere => False

/-- The caller is not elevated. -/
abbrev UnelevatedCaller (svc : Service) (s : Storage) (e : UserEvent) : Prop :=
  e.CallerIs svc BelowPartner s

section Ceiling

variable {svc : Service} {s s' : Storage} {e : UserEvent}

/-- A step of an unelevated caller elevates nobody, unless it is the promotion. -/
theorem elevated_subset_of_step (hs : s.user.Coherent) (h : UserStep svc s e s')
    (hcaller : UnelevatedCaller svc s e) (hpromotes : ¬ Promotes svc s e) :
    elevated s' ⊆ elevated s := by
  obtain ⟨table, about, hchange, hat⟩ := h.change hs
  rintro id ⟨u, hu, hrole⟩
  rw [hat.users] at hu
  cases hchange with
  | unchanged => exact ⟨u, hu, hrole⟩
  | effect call c row hrequest hmoment hlist hpublic hc hrow hsame heffect =>
    have hbelow : BelowPartner c.caller := hcaller c.caller hc
    cases heffect with
    | unchanged => exact ⟨u, hu, hrole⟩
    | deleted target htarget hid hm hcan =>
      rw [Function.update_apply] at hu
      split at hu
      · cases hu
      · exact ⟨u, hu, hrole⟩
    | created new hfresh hm hcan hid hcreator hemail hvalid about habout =>
      rw [Function.update_apply] at hu
      split at hu
      · -- a new record is below `PARTNER`
        obtain rfl := Option.some.inj hu
        obtain ⟨-, hnonroot, hnonpartner⟩ := of_canCreateUserRecord hbelow.1 hcan
        exact absurd hrole (not_or.mpr ⟨hnonroot, hnonpartner⟩)
      · exact ⟨u, hu, hrole⟩
    | written target new htarget hid hm hcan hnew about habout =>
      rw [Function.update_apply] at hu
      split at hu
      · rename_i hk
        obtain rfl := Option.some.inj hu
        subst hk
        rcases hnew.userRole with hkept | ⟨hasked, hchanges⟩
        · exact ⟨target, htarget, hkept ▸ hrole⟩
        · obtain ⟨hother, hroot | ⟨hadmin, hnonroot, hnonroot', hcreated⟩⟩ :=
            of_canChangeUserRole hchanges
          · exact absurd hroot hbelow.1
          · have hpartner : new.userRole = .PARTNER := hrole.resolve_left hnonroot
            by_cases hbefore : target.userRole = .PARTNER
            · exact ⟨target, htarget, .inr hbefore⟩
            · -- what is left is the promotion
              refine absurd ?_ hpromotes
              rw [hrequest] at hid hm hasked
              exact ⟨hlist, hpublic, hm, hpartner ▸ hasked, c.caller, hc, hadmin, target,
                hid ▸ htarget, ⟨hnonroot', hbefore⟩, hcreated, hother.symm⟩
      · exact ⟨u, hu, hrole⟩

/-- Over any run of requests by unelevated callers in which no `ADMIN` promotes what they
created to `PARTNER`, nobody becomes `ROOT` or `PARTNER`. -/
theorem elevated_subset_of_run (hs : (userSystem svc).init s)
    (h : ((userSystem svc).restrict fun s e ↦
      UnelevatedCaller svc s e ∧ ¬ Promotes svc s e).Run s s') :
    elevated s' ⊆ elevated s := by
  have hinv : s'.user.Coherent ∧ elevated s' ⊆ elevated s := by
    refine h.invariant (I := fun x ↦ x.user.Coherent ∧ elevated x ⊆ elevated s)
      (fun x e x' hx hstep ↦ ?_) ⟨hs, subset_rfl⟩
    obtain ⟨hmove, hcaller, hpromotes⟩ := hstep
    exact ⟨hmove.coherent hx.1,
      (elevated_subset_of_step hx.1 hmove hcaller hpromotes).trans hx.2⟩
  exact hinv.2

end Ceiling

/-! ## A promotion

An `ADMIN` creates a `CSR` and then makes it a `PARTNER`. -/

/-- The `ADMIN` creates a `CSR`. -/
def sampleCreation : Call :=
  sampleCall "a" "admin" "0" .POST
    (.object [("email", .str "jo@example.com"), ("userRole", .str "csr")])

/-- The `ADMIN` changes the role of the new record. -/
def samplePromotion : Call :=
  sampleCall "b" "admin" "uuid-a" .PUT (.object [("userRole", .str "partner")])

/-- The creation alone stays below the ceiling. -/
theorem elevated_subset_of_run_sample :
    elevated (sampleCreation.run .sample sampleStaff).2 ⊆ elevated sampleStaff := by
  have hallowed : System.Allowed
      (fun s c ↦ UnelevatedCaller .sample s (.call c) ∧ ¬ Promotes .sample s (.call c))
      (fun s (c : Call) ↦ (c.run .sample s).2) sampleStaff [sampleCreation] := by
    refine ⟨⟨by decide, ?_⟩, trivial⟩
    rintro ⟨-, -, hput, -⟩
    cases hput
  exact elevated_subset_of_run (Population.Coherent.of_empty rfl)
    (run_of_calls sampleStaff [sampleCreation] hallowed)

/-- Without the condition the ceiling does not hold, not even over runs of writing requests
alone: the two requests together make the new record a `PARTNER`. -/
theorem admin_promotes_to_partner :
    ¬ ∀ (svc : Service) (s s' : Storage), (userSystem svc).init s →
      ((userSystem svc).restrict fun s e ↦ e.isWrite = true ∧ UnelevatedCaller svc s e).Run s s' →
      elevated s' ⊆ elevated s := by
  intro h
  have hallowed : System.Allowed
      (fun s c ↦ (UserEvent.call c).isWrite = true ∧ UnelevatedCaller .sample s (.call c))
      (fun s (c : Call) ↦ (c.run .sample s).2) sampleStaff [sampleCreation, samplePromotion] := by
    decide
  have hsubset := h .sample sampleStaff _ (Population.Coherent.of_empty rfl)
    (run_of_calls sampleStaff _ hallowed)
  have hafter :
      ((samplePromotion.run .sample (sampleCreation.run .sample sampleStaff).2).2.user.users.find?
        "uuid-a").map UserInfo.userRole = some .PARTNER := by decide
  obtain ⟨u, hu, hrole⟩ := Option.map_eq_some_iff.mp hafter
  obtain ⟨v, hv, -⟩ := hsubset ⟨u, hu, .inr hrole⟩
  cases hv

end OwSec

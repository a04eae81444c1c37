import OwSec.RestApi.ApiKey
import OwSec.RestApi.HashBlind
import OwSec.RestApi.Messages
import OwSec.RestApi.Process
import OwSec.RestApi.Profile
import OwSec.RestApi.Session
import OwSec.RestApi.SystemSecret
import OwSec.RestApi.Totp

/-!
# Password hashes and the other handlers

The handlers that show no record of an account, or only that of the caller.
-/

namespace OwSec

open SecurityObjects Kit

namespace RestApi

variable (svc : Service) {c d : Context}

namespace SystemSecretHandler

theorem doGet_same (h : c.SameButPasswords d) : SameReply (doGet c) (doGet d) := by
  obtain ⟨hash, hashes, rfl⟩ := h
  refine .bind (.ensure rfl _) fun _ _ _ ↦ ?_
  refine .ite Iff.rfl (fun _ ↦ ?_) fun _ ↦ ?_
  · exact .bind_eq (SameRuns.reads fun _ _ _ ↦ rfl) fun _ ↦ .pure rfl
  refine .ite Iff.rfl (fun _ ↦ .pure rfl) fun _ ↦ ?_
  refine .bind (.ensure rfl _) fun _ _ _ ↦ ?_
  refine .bind_eq (SameRuns.reads fun _ _ _ ↦ rfl) fun value ↦ ?_
  exact .bind_eq (.orStop_eq _ _) fun _ ↦ .pure rfl

theorem doDelete_same (h : c.SameButPasswords d) : SameReply (doDelete c) (doDelete d) := by
  obtain ⟨hash, hashes, rfl⟩ := h
  refine .bind (.ensure rfl _) fun _ _ _ ↦ ?_
  refine .bind (.ensure rfl _) fun _ _ _ ↦ ?_
  exact .bind (SameRuns.write fun _ _ _ ↦ rfl) fun _ _ _ ↦ .pure rfl

theorem doPut_same (h : c.SameButPasswords d) : SameReply (doPut c) (doPut d) := by
  obtain ⟨hash, hashes, rfl⟩ := h
  refine .bind (.ensure rfl _) fun _ _ _ ↦ ?_
  refine .bind (.ensure rfl _) fun _ _ _ ↦ ?_
  exact .bind (SameRuns.write fun _ _ _ ↦ rfl) fun _ _ _ ↦ .pure rfl

end SystemSecretHandler

namespace ApiKeyHandler

theorem targetUser_same (hash : String) (hashes : List String) :
    SameReply (targetUser c) (targetUser (c.rehash hash hashes)) := by
  refine .bind (.ensure rfl _) fun _ _ _ ↦ ?_
  exact .bind (.ensure rfl _) fun _ _ _ ↦ .pure rfl

theorem mustExist_same (hash : String) (hashes : List String) (userUuid : String) (e : Response) :
    SameReply (mustExist svc c userUuid e) (mustExist svc (c.rehash hash hashes) userUuid e) := by
  refine .ite Iff.rfl (fun _ ↦ .pure rfl) fun _ ↦ ?_
  refine .bind (SameRuns.getUserById svc false _) fun o o' ho ↦ ?_
  cases ho with
  | none => exact .stop _
  | some _ => exact .pure rfl

theorem doGet_same (h : c.SameButPasswords d) : SameReply (doGet c) (doGet d) := by
  obtain ⟨hash, hashes, rfl⟩ := h
  refine .bind_eq (targetUser_same hash hashes) fun userUuid ↦ ?_
  refine .bind_eq (SameRuns.reads fun _ _ _ ↦ rfl) fun keys ↦ ?_
  exact .bind (.ensure rfl _) fun _ _ _ ↦ .pure rfl

theorem doDelete_same (h : c.SameButPasswords d) :
    SameReply (doDelete svc c) (doDelete svc d) := by
  obtain ⟨hash, hashes, rfl⟩ := h
  refine .bind_eq (targetUser_same hash hashes) fun userUuid ↦ ?_
  refine .bind_eq (mustExist_same svc hash hashes _ _) fun _ ↦ ?_
  refine .bind (.ensure rfl _) fun _ _ _ ↦ ?_
  refine .bind_eq (SameRuns.reads fun _ _ _ ↦ rfl) fun key ↦ ?_
  refine .bind_eq (.orStop_eq _ _) fun key ↦ ?_
  refine .bind (.ensure rfl _) fun _ _ _ ↦ ?_
  exact .bind (SameRuns.write fun _ _ _ ↦ rfl) fun _ _ _ ↦ .pure rfl

theorem doPost_same (h : c.SameButPasswords d) : SameReply (doPost svc c) (doPost svc d) := by
  obtain ⟨hash, hashes, rfl⟩ := h
  refine .bind_eq (targetUser_same hash hashes) fun userUuid ↦ ?_
  refine .bind_eq (mustExist_same svc hash hashes _ _) fun _ ↦ ?_
  refine .bind_eq (.orStop_eq _ _) fun key ↦ ?_
  refine .bind (.ensure rfl _) fun _ _ _ ↦ ?_
  refine .bind (.ensure rfl _) fun _ _ _ ↦ ?_
  refine .bind_eq (SameRuns.reads fun _ _ _ ↦ rfl) fun existing ↦ ?_
  refine .bind (.ensure rfl _) fun _ _ _ ↦ ?_
  refine .bind (.ensure rfl _) fun _ _ _ ↦ ?_
  refine .bind_eq (SameRuns.act fun s user sub ↦ ?_) fun created ↦ ?_
  · unfold Storage.createApiKey
    simp only
    split <;> rfl
  · exact .bind (.ensure rfl _) fun _ _ _ ↦ .pure rfl

theorem doPut_same (h : c.SameButPasswords d) : SameReply (doPut svc c) (doPut svc d) := by
  obtain ⟨hash, hashes, rfl⟩ := h
  refine .bind_eq (targetUser_same hash hashes) fun userUuid ↦ ?_
  refine .bind_eq (.orStop_eq _ _) fun key ↦ ?_
  refine .bind_eq (SameRuns.reads fun _ _ _ ↦ rfl) fun existing ↦ ?_
  refine .bind_eq (.orStop_eq _ _) fun existing ↦ ?_
  refine .bind (.ensure rfl _) fun _ _ _ ↦ ?_
  refine .bind_eq (.lift (.refl _)) fun description ↦ ?_
  refine .bind_eq (SameRuns.act fun s user sub ↦ ?_) fun updated ↦ ?_
  · unfold Storage.updateApiKey
    simp only
    split <;> rfl
  · exact .bind (.ensure rfl _) fun _ _ _ ↦ .pure rfl

end ApiKeyHandler

namespace SubMfaHandler

theorem configOf_same (u : UserInfo) (hash : String) (hashes : List String) :
    SameReply (configOf u) (configOf (u.rehash hash hashes)) := by
  refine .ite Iff.rfl (fun _ ↦ ?_) fun _ ↦ .pure rfl
  refine .ite Iff.rfl (fun _ ↦ ?_) fun _ ↦ ?_
  · exact .bind_eq (.orStop_eq _ _) fun _ ↦ .pure rfl
  · exact .ite Iff.rfl (fun _ ↦ .pure rfl) fun _ ↦ .pure rfl

theorem doGet_same (h : c.SameButPasswords d) : SameReply (doGet svc c) (doGet svc d) := by
  obtain ⟨hash, hashes, rfl⟩ := h
  refine .bind (SameRuns.getUserById svc true _) fun o o' ho ↦ ?_
  refine .bind (.orStop ho _) fun u v huv ↦ ?_
  obtain ⟨hash', hashes', rfl⟩ := huv.exists_eq
  exact .bind_eq (configOf_same u hash' hashes') fun _ ↦ .pure rfl

/-- Editing the caller's record. -/
theorem editOwn_same (hash : String) (hashes : List String) {edit : UserInfo → UserInfo}
    (hedit : ∀ u v : UserInfo, u.SameButPasswords v → (edit u).SameButPasswords (edit v)) :
    SameReply (editOwn svc c edit) (editOwn svc (c.rehash hash hashes) edit) := by
  refine .bind (SameRuns.getUserById svc true _) fun o o' ho ↦ ?_
  have hedited := hedit _ _ (UserInfo.SameButPasswords.getD ho)
  exact .bind_eq (SameRuns.updateUserInfo svc true _ hedited) fun _ ↦ .pure rfl

theorem putSms_same (gateway : SmsGateway) (hash : String) (hashes : List String)
    (mfc : SubMfaConfig) :
    SameReply (putSms svc gateway c mfc) (putSms svc gateway (c.rehash hash hashes) mfc) := by
  refine .ite Iff.rfl (fun _ ↦ ?_) fun _ ↦ ?_
  · refine .bind (.ensure rfl _) fun _ _ _ ↦ ?_
    refine .bind (.ensure rfl _) fun _ _ _ ↦ ?_
    exact .bind_eq (SameRuns.smsStartValidation svc gateway _ _ _) fun sent ↦ .pure rfl
  refine .ite Iff.rfl (fun _ ↦ ?_) fun _ ↦ .pure rfl
  refine .bind (.ensure rfl _) fun _ _ _ ↦ ?_
  refine .bind (.ensure rfl _) fun _ _ _ ↦ ?_
  refine .bind (.ensure rfl _) fun _ _ _ ↦ ?_
  refine .bind_eq (SameRuns.smsCompleteValidation svc _ _ _) fun valid ↦ ?_
  refine .bind (.ensure rfl _) fun _ _ _ ↦ ?_
  refine .bind_eq (editOwn_same svc hash hashes fun u v huv ↦ ?_) fun _ ↦ .pure rfl
  obtain ⟨hash', hashes', rfl⟩ := huv.exists_eq
  rfl

theorem doPut_same (gateway : SmsGateway) (h : c.SameButPasswords d) :
    SameReply (doPut svc gateway c) (doPut svc gateway d) := by
  obtain ⟨hash, hashes, rfl⟩ := h
  refine .bind_eq (.orStop_eq _ _) fun mfc ↦ ?_
  refine .ite Iff.rfl (fun _ ↦ ?_) fun _ ↦ ?_
  · refine .bind_eq (editOwn_same svc hash hashes fun u v huv ↦ ?_) fun _ ↦ .pure rfl
    obtain ⟨hash', hashes', rfl⟩ := huv.exists_eq
    rfl
  refine .ite Iff.rfl (fun _ ↦ ?_) fun _ ↦ ?_
  · refine .bind_eq (editOwn_same svc hash hashes fun u v huv ↦ ?_) fun _ ↦ .pure rfl
    obtain ⟨hash', hashes', rfl⟩ := huv.exists_eq
    rfl
  exact .ite Iff.rfl (fun _ ↦ putSms_same svc gateway hash hashes mfc) fun _ ↦ .pure rfl

end SubMfaHandler

namespace TotpHandlers

variable (source : TotpSource) (subscriber : Bool)

theorem doGet_same (h : c.SameButPasswords d) :
    SameReply (doGet source subscriber c) (doGet source subscriber d) := by
  obtain ⟨hash, hashes, rfl⟩ := h
  refine .bind_eq (SameRuns.act fun s user sub ↦ ?_) fun qrCode ↦ .pure rfl
  unfold Storage.totpStartValidation
  simp only
  split
  · split
    · split <;> rfl
    · rfl
  · rfl

theorem doPut_same (h : c.SameButPasswords d) :
    SameReply (doPut source subscriber c) (doPut source subscriber d) := by
  obtain ⟨hash, hashes, rfl⟩ := h
  refine .bind_eq (.orStop_eq _ _) fun nextIndex ↦ ?_
  refine .bind_eq (SameRuns.act fun s user sub ↦ ?_) fun answer ↦ ?_
  · unfold Storage.totpContinueValidation
    simp only
    split
    · split
      · split
        · rfl
        · split
          · rfl
          · split
            · rfl
            · split
              · rfl
              · split <;> rfl
      · rfl
    · rfl
  · cases answer with
    | accepted nextIndex moreCodes => exact .pure rfl
    | refused e => exact .pure rfl

end TotpHandlers

section Profile

variable (isSub : Bool)

theorem AvatarHandlers.setAvatar_same (now : ℕ) (id value : String) :
    SameRuns (fun _ _ ↦ True) (setAvatar svc isSub now id value) (setAvatar svc isSub now id value) := by
  refine Command.Related.write fun s t hst ↦ ?_
  exact hst.setPopulation isSub ((hst.population isSub).setAvatar now id value)

theorem AvatarHandlers.doPost_same (maxSize : ℕ) (part : AvatarPart) (h : c.SameButPasswords d) :
    SameReply (doPost svc isSub maxSize part c) (doPost svc isSub maxSize part d) := by
  obtain ⟨hash, hashes, rfl⟩ := h
  refine .ite Iff.rfl (fun _ ↦ ?_) fun _ ↦ .pure rfl
  refine .bind (SameRuns.write fun _ _ _ ↦ by cases isSub <;> rfl) fun _ _ _ ↦ ?_
  exact .bind (setAvatar_same svc isSub _ _ _) fun _ _ _ ↦ .pure rfl

theorem AvatarHandlers.doGet_same (h : c.SameButPasswords d) :
    SameReply (doGet isSub c) (doGet isSub d) := by
  obtain ⟨hash, hashes, rfl⟩ := h
  refine .bind (.ensure rfl _) fun _ _ _ ↦ ?_
  refine .bind_eq (SameRuns.reads fun _ _ _ ↦ by cases isSub <;> rfl) fun a ↦ ?_
  exact .bind_eq (.orStop_eq _ _) fun _ ↦ .pure rfl

theorem AvatarHandlers.doDelete_same (h : c.SameButPasswords d) :
    SameReply (doDelete svc isSub c) (doDelete svc isSub d) := by
  obtain ⟨hash, hashes, rfl⟩ := h
  refine .bind (.ensure rfl _) fun _ _ _ ↦ ?_
  refine .bind (SameRuns.write fun _ _ _ ↦ by cases isSub <;> rfl) fun _ _ _ ↦ ?_
  exact .bind (setAvatar_same svc isSub _ _ _) fun _ _ _ ↦ .pure rfl

theorem PreferencesHandlers.doGet_same (h : c.SameButPasswords d) :
    SameReply (doGet isSub c) (doGet isSub d) := by
  obtain ⟨hash, hashes, rfl⟩ := h
  exact .bind_eq (SameRuns.reads fun _ _ _ ↦ by cases isSub <;> rfl) fun p ↦ .pure rfl

theorem PreferencesHandlers.doPut_same (h : c.SameButPasswords d) :
    SameReply (doPut svc isSub c) (doPut svc isSub d) := by
  obtain ⟨hash, hashes, rfl⟩ := h
  refine .bind_eq (.orStop_eq _ _) fun p ↦ ?_
  exact .bind (SameRuns.write fun _ _ _ ↦ by cases isSub <;> rfl) fun _ _ _ ↦ .pure rfl

end Profile

section Messages

variable (gateway : SmsGateway)

/-- Reading a text of the body. -/
theorem textOf_same (o : JsonObject) (field : String) :
    SameReply (textOf svc o field) (textOf svc o field) :=
  .lift (.refl _)

theorem SmsHandler.send_same (hash : String) (hashes : List String) :
    SameReply (send svc gateway c) (send svc gateway (c.rehash hash hashes)) := by
  refine .bind (.ensure rfl _) fun _ _ _ ↦ ?_
  refine .bind_eq (.orStop_eq _ _) fun o ↦ ?_
  refine .ite Iff.rfl (fun _ ↦ ?_) fun _ ↦ .pure rfl
  refine .bind_eq (textOf_same svc o "to") fun phoneNumber ↦ ?_
  exact .bind_eq (textOf_same svc o "text") fun text ↦ .pure rfl

theorem SmsHandler.completeOrSend_same (hash : String) (hashes : List String) :
    SameReply (completeOrSend svc gateway c)
      (completeOrSend svc gateway (c.rehash hash hashes)) := by
  unfold completeOrSend
  rw [show (c.rehash hash hashes).request = c.request from rfl]
  split
  · refine .bind_eq (.orStop_eq _ _) fun o ↦ ?_
    refine .ite Iff.rfl (fun _ ↦ ?_) fun _ ↦ send_same svc gateway hash hashes
    refine .bind_eq (textOf_same svc o "to") fun number ↦ ?_
    exact .bind_eq (SameRuns.smsCompleteValidation svc _ _ _) fun valid ↦ .pure rfl
  · exact send_same svc gateway hash hashes

theorem SmsHandler.doPost_same (h : c.SameButPasswords d) :
    SameReply (doPost svc gateway c) (doPost svc gateway d) := by
  obtain ⟨hash, hashes, rfl⟩ := h
  refine .bind (.ensure rfl _) fun _ _ _ ↦ ?_
  refine .ite Iff.rfl (fun _ ↦ ?_) fun _ ↦ completeOrSend_same svc gateway hash hashes
  refine .bind_eq (.orStop_eq _ _) fun o ↦ ?_
  refine .ite Iff.rfl (fun _ ↦ ?_) fun _ ↦ completeOrSend_same svc gateway hash hashes
  refine .bind_eq (textOf_same svc o "to") fun number ↦ ?_
  exact .bind_eq (SameRuns.smsStartValidation svc gateway _ _ _) fun sent ↦ .pure rfl

theorem EmailHandler.doPost_same (h : c.SameButPasswords d) :
    SameReply (doPost svc c) (doPost svc d) := by
  obtain ⟨hash, hashes, rfl⟩ := h
  refine .bind_eq (.orStop_eq _ _) fun o ↦ ?_
  split
  · refine .bind_eq (.lift (.refl _)) fun _ ↦ ?_
    refine .bind_eq (textOf_same svc o "subject") fun _ ↦ ?_
    refine .bind_eq (textOf_same svc o "text") fun _ ↦ ?_
    exact .bind_eq (textOf_same svc o "from") fun _ ↦ .pure rfl
  · exact .pure rfl

end Messages

section ProcessHandlers

variable (process : Process)

theorem SystemCommandHandler.doGet_same (h : c.SameButPasswords d) :
    SameReply (doGet process c) (doGet process d) := by
  obtain ⟨hash, hashes, rfl⟩ := h
  unfold doGet
  rw [show (c.rehash hash hashes).request = c.request from rfl]
  split
  · exact .ite Iff.rfl (fun _ ↦ .pure rfl) fun _ ↦ .pure rfl
  · exact .pure rfl

theorem SystemCommandHandler.doPost_same (h : c.SameButPasswords d) :
    SameReply (doPost process svc.json c) (doPost process svc.json d) := by
  obtain ⟨hash, hashes, rfl⟩ := h
  refine .bind_eq (.orStop_eq _ _) fun o ↦ ?_
  split
  · exact .bind_eq (.orStop_eq _ _) fun command ↦ .pure rfl
  · exact .pure rfl

theorem SystemConfigurationHandler.doGet_same (h : c.SameButPasswords d) :
    SameReply (doGet process c) (doGet process d) := by
  obtain ⟨hash, hashes, rfl⟩ := h
  exact .bind (.ensure rfl _) fun _ _ _ ↦ .pure rfl

theorem SystemConfigurationHandler.refuse_same (h : c.SameButPasswords d) :
    SameReply (refuse c) (refuse d) := by
  obtain ⟨hash, hashes, rfl⟩ := h
  exact .bind (.ensure rfl _) fun _ _ _ ↦ .pure rfl

end ProcessHandlers

namespace SessionHandlers

variable (isSub : Bool)

theorem doGet_same (h : c.SameButPasswords d) :
    SameReply (doGet svc isSub c) (doGet svc isSub d) := by
  obtain ⟨hash, hashes, rfl⟩ := h
  refine .bind (Command.Related.act fun _ _ hst ↦ isAuthorized_same svc _ isSub _ hst)
    fun a b hab ↦ ?_
  rw [hab.expired]
  refine .bind (.orStop hab.granted _) fun x y hxy ↦ ?_
  refine .ite Iff.rfl (fun _ ↦ ?_) fun _ ↦ .pure rfl
  exact .pure (congrArg Response.user hxy.1.userinfo.sanitize_eq)

theorem doDelete_same (h : c.SameButPasswords d) :
    SameReply (doDelete svc isSub c) (doDelete svc isSub d) := by
  obtain ⟨hash, hashes, rfl⟩ := h
  refine .bind_eq (.orStop_eq _ _) fun sessionToken ↦ ?_
  refine .bind (.ensure rfl _) fun _ _ _ ↦ ?_
  refine .bind (Command.Related.write fun s t hst ↦ ?_) fun _ _ _ ↦ .pure rfl
  cases isSub
  · exact hst.setPopulation false ((hst.population false).logoutOf _ _)
  · exact hst.setPopulation true ((hst.population true).logoutOf _ _)

end SessionHandlers

end RestApi

end OwSec

import OwSec.Mail.Templates
import OwSec.Mail.Variables
import OwSec.RestApi.ActionLinks

/-!
# Messages of the authentication service

The messages that `AuthService` hands to the mailer: the code of a challenge
(`SendEmailChallengeCode`) and the links about a subscriber (`SendEmailToSubUser`).  The operator
whose template a message is written with is read from the record of the subscriber.
-/

namespace OwSec

open SecurityObjects RestApi

/-- What the messages take from the configuration. -/
structure MailSettings where
  /-- `AuthService::GetLogoAssetURI`. -/
  logoAssetURI : String
  /-- `AuthService::GetSubLogoAssetURI`. -/
  subLogoAssetURI : String
  /-- `MicroServiceGetPublicAPIEndPoint`. -/
  publicAPIEndPoint : String
  helperEmail : String
  systemLoginSite : String
  helperSite : String
  globalHelperEmail : String
  userSignature : String
  subHelperEmail : String
  subSystemLoginSite : String
  subHelperSite : String
  globalSubHelperEmail : String
  subSignature : String

namespace MessageAttributes

/-- No attributes. -/
def empty : MessageAttributes := fun _ ↦ none

/-- `Attrs[a] = value`. -/
def set (attrs : MessageAttributes) (a : MessageAttribute) (value : String) : MessageAttributes :=
  fun b ↦ if b = a then some value else attrs b

@[simp] theorem set_self (attrs : MessageAttributes) (a : MessageAttribute) (value : String) :
    attrs.set a value a = some value := if_pos rfl

@[simp] theorem set_of_ne (attrs : MessageAttributes) {a b : MessageAttribute} (h : b ≠ a)
    (value : String) : attrs.set a value b = attrs b := if_neg h

end MessageAttributes

/-- What is handed to `SMTPMailerService::SendMessage`. -/
structure MailMessage where
  templateName : String
  attrs : MessageAttributes
  subscriber : Bool

namespace MailSettings

variable (settings : MailSettings)

/-- `SMTPMailerService::AddUserVars`. -/
def addUserVars (attrs : MessageAttributes) : MessageAttributes :=
  ((((attrs.set .USER_HELPER_EMAIL settings.helperEmail).set
    .USER_SYSTEM_LOGIN settings.systemLoginSite).set
    .USER_HELPER_SITE settings.helperSite).set
    .GLOBAL_USER_HELPER_EMAIL settings.globalHelperEmail).set
    .USER_SIGNATURE settings.userSignature

/-- `SMTPMailerService::AddSubVars`. -/
def addSubVars (attrs : MessageAttributes) : MessageAttributes :=
  ((((attrs.set .SUB_HELPER_EMAIL settings.subHelperEmail).set
    .SUB_SYSTEM_LOGIN settings.subSystemLoginSite).set
    .SUB_HELPER_SITE settings.subHelperSite).set
    .GLOBAL_SUB_HELPER_EMAIL settings.globalSubHelperEmail).set
    .SUB_SIGNATURE settings.subSignature

/-- The attributes of the code of a challenge. -/
def challengeAttrs (u : UserInfo) (logo challenge : String) : MessageAttributes :=
  let attrs := (((MessageAttributes.empty.set .RECIPIENT_EMAIL u.email).set .LOGO logo).set
    .SUBJECT "Login validation code").set .CHALLENGE_CODE challenge
  if u.userRole = .SUBSCRIBER then settings.addSubVars attrs else settings.addUserVars attrs

/-- The operator whose template the code of a challenge is written with, if it is not the one
that all share. -/
def challengeOperator (u : UserInfo) : Option String :=
  if u.signingUp.isEmpty then none
  else
    match tokenize ':' u.signingUp with
    | [operatorName, _] => some operatorName
    | _ => none

/-- `AuthService::SendEmailChallengeCode`. -/
def emailChallengeCode (u : UserInfo) (challenge : String) : MailMessage :=
  match challengeOperator u with
  | none =>
    { templateName := templateName .VERIFICATION_CODE
      attrs := settings.challengeAttrs u settings.logoAssetURI challenge
      subscriber := false }
  | some operatorName =>
    { templateName := templateName .SUB_VERIFICATION_CODE operatorName
      attrs := settings.challengeAttrs u settings.subLogoAssetURI challenge
      subscriber := true }

/-- The messages of `AuthService::SendEmailToSubUser`: what they are about, their subject and
their template. -/
def subLinkKinds : List (String × String × EmailReason) := [
  ("sub_password_reset", "Password reset link", .SUB_FORGOT_PASSWORD),
  ("sub_email_verification", "e-mail Address Verification", .SUB_EMAIL_VERIFICATION),
  ("signup_verification", "Signup e-mail Address Verification", .SUB_SIGNUP_VERIFICATION)]

/-- `AuthService::SendEmailToSubUser`, once the subscriber was found by the address. -/
def subLinkMessage (linkId : String) (u : UserInfo) (reason : EmailReason)
    (operatorName : String) : Option MailMessage :=
  (subLinkKinds.find? (·.2.2 == reason)).map fun (action, subject, reason) ↦
    { templateName := templateName reason operatorName
      attrs := settings.addSubVars
        (((((MessageAttributes.empty.set .RECIPIENT_EMAIL u.email).set
          .LOGO settings.subLogoAssetURI).set .SUBJECT subject).set
          .ACTION_LINK (settings.publicAPIEndPoint ++ "/actionLink?action=" ++ action ++
            "&id=" ++ linkId)).set
          .ACTION_LINK_HTML ("/api/v1/actionLink?action=" ++ action ++ "&id=" ++ linkId))
      subscriber := true }

/-- The message of a sign-up, as `ActionLinkManager::run` asks for it; `none` where the operator
cannot be read. -/
def signupMessage (linkId : String) (u : UserInfo) : Option MailMessage :=
  (signupOperator u).bind (settings.subLinkMessage linkId u .SUB_SIGNUP_VERIFICATION)

section Recipients

variable {settings}

@[simp] theorem addUserVars_recipient (attrs : MessageAttributes) :
    settings.addUserVars attrs .RECIPIENT_EMAIL = attrs .RECIPIENT_EMAIL := rfl

@[simp] theorem addSubVars_recipient (attrs : MessageAttributes) :
    settings.addSubVars attrs .RECIPIENT_EMAIL = attrs .RECIPIENT_EMAIL := rfl

theorem challengeAttrs_recipient (u : UserInfo) (logo challenge : String) :
    settings.challengeAttrs u logo challenge .RECIPIENT_EMAIL = some u.email := by
  unfold challengeAttrs
  split <;> rfl

/-- The sender reads the recipient of every message without looking whether there is one: there
is. -/
theorem emailChallengeCode_recipient (u : UserInfo) (challenge : String) :
    (settings.emailChallengeCode u challenge).attrs .RECIPIENT_EMAIL = some u.email := by
  unfold emailChallengeCode
  split <;> exact challengeAttrs_recipient u _ challenge

theorem subLinkMessage_recipient {linkId : String} {u : UserInfo} {reason : EmailReason}
    {operatorName : String} {m : MailMessage}
    (h : settings.subLinkMessage linkId u reason operatorName = some m) :
    m.attrs .RECIPIENT_EMAIL = some u.email := by
  obtain ⟨kind, -, rfl⟩ := Option.map_eq_some_iff.mp h
  rfl

end Recipients

end MailSettings

end OwSec

import OwSec.RestApi.Handler

/-!
# Action links

The links that the service sends by mail: `storage/orm_actionLinks.cpp`, the end point that
serves them (`RESTAPI_action_links.cpp`), and the thread that sends them
(`ActionLinkManager.cpp`).

A GET shows a form or verifies an address, a POST completes what the form asked for.  What is
done depends on the query parameter `action` of the request; the kind that is stored with the
link is looked at by one of the three functions that complete something.  None of them looks at
the columns that say that the link was completed or cancelled.
-/

namespace OwSec

open SecurityObjects Kit

/-! ## `ActionLinkDB` -/

namespace Storage

/-- `ActionLinkDB::GetActionLink`. -/
def getActionLink (s : Storage) (actionId : String) : Option ActionLink :=
  s.actionLinks.find? actionId

/-- `GetRecord` followed by `UpdateRecord` of the record with some columns set. -/
def modifyAction (s : Storage) (actionId : String) (f : ActionLink → ActionLink) : Storage :=
  match s.getActionLink actionId with
  | some a =>
    match s.actionLinks.update actionId (f a) with
    | some actionLinks => { s with actionLinks }
    | none => s
  | none => s

/-- `ActionLinkDB::SentAction`. -/
def sentAction (now : ℕ) (s : Storage) (actionId : String) : Storage :=
  s.modifyAction actionId ({ · with sent := now })

/-- `ActionLinkDB::CompleteAction`. -/
def completeAction (now : ℕ) (s : Storage) (actionId : String) : Storage :=
  s.modifyAction actionId ({ · with completed := now })

/-- `ActionLinkDB::CancelAction`. -/
def cancelAction (now : ℕ) (s : Storage) (actionId : String) : Storage :=
  s.modifyAction actionId ({ · with canceled := now })

/-- `ActionLinkDB::GetActions`. -/
def getActions (s : Storage) (max : ℕ := 200) : List ActionLink :=
  (s.actionLinks.rows.filter (·.sent == 0)).take max

/-- `ActionLinkDB::CleanOldActionLinks`. -/
def cleanOldActionLinks (now : ℕ) (s : Storage) : Storage :=
  { s with
    actionLinks := s.actionLinks.deleteWhere fun a ↦
      a.created ≤ u64 (now + 2 ^ 64 - 30 * 24 * 60 * 60) }

end Storage

namespace RestApi

/-! ## The end point -/

/-- What the end point sends back. -/
inductive LinkReply
  /-- `SendHTMLFileBack`: a file of the asset directory and the texts put into it. -/
  | page (file : String) (vars : List (String × String))
  /-- The success page of a sign-up, after the provisioning service was told. -/
  | signedUp (signupUUID : String) (file : String) (vars : List (String × String))
  /-- `CompleteEmailInvitation` is empty. -/
  | nothing
  /-- An exception of the library. -/
  | exception
  deriving DecidableEq

/-- A request to the end point; a POST carries a form. -/
inductive LinkRequest
  | get (r : Request)
  | post (r : Request) (form : List (String × String))

/-- The surroundings of a request to the end point. -/
structure LinkContext where
  svc : Service
  moment : Moment
  /-- `AuthService()->PasswordValidationExpression()`. -/
  passwordValidation : String
  /-- `MicroService::instance().GetUIURI()`. -/
  uiURI : String
  /-- What `AddGlobalVars` adds. -/
  globalVars : List (String × String)

/-- `Form.get(name, default)`: names are compared without regard to case. -/
def formGet (form : List (String × String)) (name default : String) : String :=
  ((form.find? fun p ↦ icompareEq p.1 name).map Prod.snd).getD default

/-- `ValidUserAction`. -/
def validUserAction (link : ActionLink) : Bool :=
  link.userAction && (link.action == LinkActions.FORGOT_PASSWORD.toNat ||
    link.action == LinkActions.VERIFY_EMAIL.toNat)

/-- `ValidSubscriberAction`. -/
def validSubscriberAction (link : ActionLink) : Bool :=
  !link.userAction && link.action == LinkActions.SUB_FORGOT_PASSWORD.toNat

namespace LinkContext

variable (x : LinkContext)

/-- A page with the global texts. -/
def page (file : String) (vars : List (String × String)) : LinkReply :=
  .page file (vars ++ x.globalVars)

/-- `DoReturnA404`. -/
def doReturnA404 : LinkReply := x.page "/404_error.html" []

/-- `RequestResetPassword`. -/
def requestResetPassword (link : ActionLink) : LinkReply :=
  x.page "/password_reset.html" [("UUID", link.id), ("PASSWORD_VALIDATION", x.passwordValidation)]

/-- `DoNewSubVerification`. -/
def doNewSubVerification (link : ActionLink) : LinkReply :=
  x.page "/sub_signup_verification.html"
    [("UUID", link.id), ("PASSWORD_VALIDATION", x.passwordValidation)]

/-- An error page of a form. -/
def errorPage (file id text : String) : LinkReply :=
  x.page file [("UUID", id), ("ERROR_TEXT", text)]

def passwordMismatchText (id : String) : String :=
  "For some reason, the passwords entered do not match or they do not comply with accepted " ++
    "password creation restrictions. Please consult our on-line help to look at the our " ++
    "password policy. If you would like to contact us, please mention id(" ++ id ++ ")"

def unknownUserText : String :=
  "This request does not contain a valid user ID. Please contact your system administrator."

def disabledUserText : String :=
  "Please contact our system administrators. We have identified an error in your account that " ++
    "must be resolved first."

def reusedPasswordText : String := "You cannot reuse one of your recent passwords."

/-- `GetUserById` in the table that the link selects. -/
def findUser (s : Storage) (userAction : Bool) (userId : String) : Option UserInfo × Storage :=
  s.onPopulation (!userAction) fun p ↦ p.getUserById x.svc userId

/-- `UpdateUserInfo` in the table that the link selects. -/
def updateUser (s : Storage) (userAction : Bool) (userId : String) (u : UserInfo) : Storage :=
  (s.onPopulation (!userAction) fun p ↦ p.updateUserInfo x.svc userId u).2

/-- What `CompleteResetPassword` sets besides the password. -/
def resetRecord (link : ActionLink) (u : UserInfo) : UserInfo :=
  let u :=
    if link.action == LinkActions.VERIFY_EMAIL.toNat then
      { u with
        waitingForEmailCheck := false
        validated := true
        lastEmailCheck := x.moment.now
        validationDate := x.moment.now
        changePassword := false }
    else u
  { u with modified := x.moment.now }

/-- `CompleteResetPassword`. -/
def completeResetPassword (form : List (String × String)) (s : Storage) : LinkReply × Storage :=
  let m := x.moment
  if form.isEmpty then (x.doReturnA404, s)
  else
    let password1 := formGet form "password1" "bla"
    let password2 := formGet form "password2" "blu"
    let id := formGet form "id" ""
    match s.getActionLink id with
    | none => (x.doReturnA404, s)
    | some link =>
      if link.expires < m.now then (x.doReturnA404, s.cancelAction m.now id)
      else if !validUserAction link && !validSubscriberAction link then (x.doReturnA404, s)
      else if password1 != password2 || !validatePassword x.svc password2 ||
          !validatePassword x.svc password1 then
        (x.errorPage "/password_reset_error.html" id (passwordMismatchText id), s)
      else
        match x.findUser s link.userAction link.userId with
        | (none, s) => (x.errorPage "/password_reset_error.html" id unknownUserText, s)
        | (some u, s) =>
          if u.blackListed || u.suspended then
            (x.errorPage "/password_reset_error.html" id disabledUserText, s)
          else
            match setPassword x.svc m.salt password1 u with
            | .exception => (.exception, s)
            | .refused => (x.errorPage "/password_reset_error.html" id reusedPasswordText, s)
            | .applied u =>
              let u := x.resetRecord link u
              let s := x.updateUser s link.userAction link.userId u
              (x.page "/password_reset_success.html"
                [("UUID", id), ("USERNAME", u.email), ("ACTION_LINK", x.uiURI)],
                s.completeAction m.now id)

/-- What `CompleteSubVerification` sets besides the password; a time is converted to a flag. -/
def signupRecord (u : UserInfo) : UserInfo :=
  { u with
    modified := x.moment.now
    changePassword := false
    lastEmailCheck := x.moment.now
    waitingForEmailCheck := false
    validated := x.moment.now != 0 }

/-- The last part of `CompleteSubVerification`: the provisioning service is told which sign-up
was completed. -/
def signupReply (id : String) (u : UserInfo) : LinkReply :=
  let vars := [("UUID", id), ("USERNAME", u.email)] ++ x.globalVars
  match tokenize ':' u.signingUp with
  | [] => .exception
  | [_] => .signedUp u.signingUp "/sub_signup_verification_success.html" vars
  | _ :: signupUUID :: _ => .signedUp signupUUID "/sub_signup_verification_success.html" vars

/-- `CompleteSubVerification`: the kind of the link is not looked at, and the subscribers are
searched whatever the link says. -/
def completeSubVerification (form : List (String × String)) (s : Storage) : LinkReply × Storage :=
  let m := x.moment
  if form.isEmpty then (x.doReturnA404, s)
  else
    let password1 := formGet form "password1" "bla"
    let password2 := formGet form "password2" "blu"
    let id := formGet form "id" ""
    match s.getActionLink id with
    | none => (x.doReturnA404, s)
    | some link =>
      if link.expires < m.now then (x.doReturnA404, s.cancelAction m.now id)
      else if password1 != password2 || !validateSubPassword x.svc password1 then
        (x.errorPage "/sub_password_reset_error.html" id (passwordMismatchText id), s)
      else
        match x.findUser s false link.userId with
        | (none, s) => (x.errorPage "/sub_signup_verification_error.html" id unknownUserText, s)
        | (some u, s) =>
          if u.blackListed || u.suspended then
            (x.errorPage "/sub_signup_verification_error.html" id disabledUserText, s)
          else
            match setPassword x.svc m.salt password1 u with
            | .exception => (.exception, s)
            | .refused =>
              (x.errorPage "/sub_signup_verification_error.html" id reusedPasswordText, s)
            | .applied u =>
              let u := x.signupRecord u
              let s := x.updateUser s false link.userId u
              (x.signupReply id u, s.completeAction m.now id)

/-- What `DoEmailVerification` sets. -/
def verifiedRecord (u : UserInfo) : UserInfo :=
  { u with
    waitingForEmailCheck := false
    validated := true
    lastEmailCheck := x.moment.now
    validationDate := x.moment.now
    modified := x.moment.now }

/-- `DoEmailVerification`: a user is sent on to a form, a subscriber is verified at once. -/
def doEmailVerification (link : ActionLink) (s : Storage) : LinkReply × Storage :=
  let m := x.moment
  if link.expires < m.now then (x.doReturnA404, s.cancelAction m.now link.id)
  else
    match x.findUser s link.userAction link.userId with
    | (none, s) =>
      (x.errorPage "/email_verification_error.html" link.id
        "This does not appear to be a valid email verification link..", s)
    | (some u, s) =>
      if link.userAction then (x.requestResetPassword link, s)
      else
        let u := x.verifiedRecord u
        let s := x.updateUser s false link.userId u
        (x.page "/email_verification_success.html"
          [("UUID", link.id), ("USERNAME", u.email), ("ACTION_LINK", x.uiURI)],
          s.completeAction m.now link.id)

/-- `DoGet`. -/
def doGet (r : Request) (s : Storage) : LinkReply × Storage :=
  let action := r.getParameter "action"
  let id := r.getParameter "id"
  match s.getActionLink id with
  | none => (x.doReturnA404, s)
  | some link =>
    if action == "password_reset" then (x.requestResetPassword link, s)
    else if action == "sub_password_reset" then (x.requestResetPassword link, s)
    else if action == "email_verification" then x.doEmailVerification link s
    else if action == "sub_email_verification" then x.doEmailVerification link s
    else if action == "signup_verification" then (x.doNewSubVerification link, s)
    else (x.doReturnA404, s)

/-- `DoPost`. -/
def doPost (r : Request) (form : List (String × String)) (s : Storage) : LinkReply × Storage :=
  let action := r.getParameter "action"
  if action == "password_reset" then x.completeResetPassword form s
  else if action == "sub_password_reset" then x.completeResetPassword form s
  else if action == "signup_completion" then x.completeSubVerification form s
  else if action == "email_invitation" then (.nothing, s)
  else (x.doReturnA404, s)

/-- A request to the end point. -/
def handle (s : Storage) : LinkRequest → LinkReply × Storage
  | .get r => x.doGet r s
  | .post r form => x.doPost r form s

end LinkContext

/-- The link that a request names. -/
def LinkRequest.linkId : LinkRequest → String
  | .get r => r.getParameter "id"
  | .post _ form => formGet form "id" ""

/-! ## `ActionLinkManager` -/

/-- The table whose user a link of this kind is for; other kinds are for nobody yet. -/
def linkPopulation (action : ℕ) : Option Bool :=
  if action == LinkActions.FORGOT_PASSWORD.toNat || action == LinkActions.VERIFY_EMAIL.toNat then
    some false
  else if action == LinkActions.SUB_FORGOT_PASSWORD.toNat ||
      action == LinkActions.SUB_VERIFY_EMAIL.toNat || action == LinkActions.SUB_SIGNUP.toNat then
    some true
  else none

/-- The operator whose template the message of a sign-up is written with; `none` is the exception
of `Signup[0]` where there are no parts. -/
def signupOperator (u : UserInfo) : Option String :=
  match tokenize ':' u.signingUp with
  | [] => none
  | [_] => some ""
  | operatorName :: _ => some operatorName

/-- The message of the link cannot be written for the user. -/
def messageRaises (i : ActionLink) (u : UserInfo) : Bool :=
  i.action == LinkActions.SUB_SIGNUP.toNat && (signupOperator u).isNone

/-- One turn of the loop of `ActionLinkManager::run`, for a link that it has read before: the
message is sent or not, and the link counts as sent either way.  An exception ends the thread. -/
def processLink (svc : Service) (now : ℕ) (i : ActionLink) (s : Storage) : Storage :=
  match linkPopulation i.action with
  | some isSub =>
    match s.onPopulation isSub fun p ↦ p.getUserById svc i.userId with
    | (none, s) => s.cancelAction now i.id
    | (some u, s) => if messageRaises i u then s else s.sentAction now i.id
  | none =>
    if i.action == LinkActions.EMAIL_INVITATION.toNat &&
        24 * 60 * 60 < u64 (now + 2 ^ 64 - i.created) then s.cancelAction now i.id
    else s.sentAction now i.id

end RestApi

end OwSec

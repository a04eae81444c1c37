import Mathlib.Data.List.TakeWhile
import OwSec.Kit.Paths
import OwSec.Text

/-!
# Templates of messages

The texts of the messages are files: `MessagingTemplates.h` names them, for all or for one
operator, and `SMTPMailerService::SendIt` loads the file of the operator or, where that is
missing or empty, the one that all operators share.

The name of the shared file is cut out of the name with the operator, at the second slash.  So
it is the shared one exactly when whatever the name of the operator has behind its first slash
leads nowhere else.
-/

namespace OwSec

open Kit

/-! ## `MessagingTemplates` -/

/-- `MessagingTemplates::EMAIL_REASON`. -/
inductive EmailReason
  | FORGOT_PASSWORD | EMAIL_VERIFICATION | SUB_SIGNUP_VERIFICATION | EMAIL_INVITATION
  | VERIFICATION_CODE | SUB_FORGOT_PASSWORD | SUB_EMAIL_VERIFICATION | SUB_VERIFICATION_CODE
  | CERTIFICATE_TRANSFER_NOTIFICATION | CERTIFICATE_TRANSFER_AUTHORIZATION
  | CERTIFICATE_DISPUTE_SUCCESS | CERTIFICATE_DISPUTE_REJECTED | CERTIFICATE_TRANSFER_CANCELED
  | CERTIFICATE_TRANSFER_ACCEPTED | CERTIFICATE_TRANSFER_REJECTED
  deriving DecidableEq, Repr

/-- `EmailTemplateNames`. -/
def emailTemplateName : EmailReason → String
  | .FORGOT_PASSWORD => "password_reset"
  | .EMAIL_VERIFICATION => "email_verification"
  | .SUB_SIGNUP_VERIFICATION => "sub_signup_verification"
  | .EMAIL_INVITATION => "email_invitation"
  | .VERIFICATION_CODE => "verification_code"
  | .SUB_FORGOT_PASSWORD => "sub_password_reset"
  | .SUB_EMAIL_VERIFICATION => "sub_email_verification"
  | .SUB_VERIFICATION_CODE => "sub_verification_code"
  | .CERTIFICATE_TRANSFER_NOTIFICATION => "certificate_transfer_notification"
  | .CERTIFICATE_TRANSFER_AUTHORIZATION => "certificate_transfer_authorization"
  | .CERTIFICATE_DISPUTE_SUCCESS => "certificate_dispute_success"
  | .CERTIFICATE_DISPUTE_REJECTED => "certificate_dispute_rejected"
  | .CERTIFICATE_TRANSFER_CANCELED => "certificate_transfer_canceled"
  | .CERTIFICATE_TRANSFER_ACCEPTED => "certificate_transfer_accepted"
  | .CERTIFICATE_TRANSFER_REJECTED => "certificate_transfer_rejected"

/-- `MessagingTemplates::AddOperator`. -/
def addOperator (filename operatorName : String) : String :=
  if operatorName.isEmpty then "/" ++ filename else "/" ++ operatorName ++ "/" ++ filename

/-- `MessagingTemplates::TemplateName`. -/
def templateName (r : EmailReason) (operatorName : String := "") : String :=
  addOperator (emailTemplateName r) operatorName

/-! ## Loading a template -/

/-- `Utils::LoadFile`: a file that cannot be read has no contents. -/
def loadFile (fs : FileSystem String) (path : String) : String := (fs.read path.toList).getD ""

/-- `TemplateName.substr(TemplateName.find('/', 1))`: the name without the operator, if there is
a second slash. -/
def noBrand (name : String) : Option String :=
  match (name.toList.drop 1).dropWhile (· ≠ '/') with
  | [] => none
  | rest => some (String.ofList rest)

/-- The template that `SMTPMailerService::SendIt` loads. -/
def loadTemplate (fs : FileSystem String) (templateDir name : String) : String :=
  let content := loadFile fs (templateDir ++ name ++ ".html")
  if content.isEmpty then
    match noBrand name with
    | some noBrand => loadFile fs (templateDir ++ noBrand ++ ".html")
    | none => content
  else content

/-! ## The fallback -/

/-- Where the template of an operator is missing or empty, the shared one is loaded. -/
def FallsBack (operatorName : String) : Prop :=
  ∀ (fs : FileSystem String) (templateDir : String) (r : EmailReason) (content : String),
    loadFile fs (templateDir ++ templateName r operatorName ++ ".html") = "" →
    fs.read (templateDir ++ templateName r ++ ".html").toList = some content →
    loadTemplate fs templateDir (templateName r operatorName) = content

/-- Behind its first slash, the name of the operator leads nowhere else. -/
def Unbranched (operatorName : String) : Prop :=
  ∀ name ∈ (components operatorName.toList).tail, Stays name

instance (operatorName : String) : Decidable (Unbranched operatorName) :=
  inferInstanceAs (Decidable (∀ _ ∈ _, _))

section Names

variable {operatorName : String} (r : EmailReason)

/-- The file of a template, without its directory. -/
def templateFile : List Char := (emailTemplateName r).toList ++ ".html".toList

theorem templateFile_plain : '/' ∉ templateFile r ∧ '\x00' ∉ templateFile r := by
  cases r <;> decide

theorem toList_shared (templateDir : String) :
    (templateDir ++ templateName r ++ ".html").toList =
      templateDir.toList ++ '/' :: templateFile r := by
  simp [templateName, addOperator, templateFile]

theorem toList_templateName (h : operatorName ≠ "") :
    (templateName r operatorName).toList =
      '/' :: (operatorName.toList ++ '/' :: (emailTemplateName r).toList) := by
  unfold templateName addOperator
  rw [if_neg (by simpa using h)]
  simp

theorem toList_specific (h : operatorName ≠ "") (templateDir : String) :
    (templateDir ++ templateName r operatorName ++ ".html").toList =
      templateDir.toList ++ '/' :: (operatorName.toList ++ '/' :: templateFile r) := by
  rw [String.toList_append, String.toList_append, toList_templateName r h]
  simp [templateFile]

/-- Up to the first slash the name of the operator is cut off. -/
theorem noBrand_templateName (h : operatorName ≠ "") :
    noBrand (templateName r operatorName) =
      some (String.ofList ((operatorName.toList ++ '/' :: (emailTemplateName r).toList).dropWhile
        (· ≠ '/'))) := by
  unfold noBrand
  rw [toList_templateName r h, List.drop_one, List.tail_cons]
  split
  · rename_i hnil
    rw [List.dropWhile_eq_nil_iff] at hnil
    exact absurd (hnil '/' (by simp)) (by simp)
  · rfl

/-- Without a slash in it the name is cut off altogether. -/
theorem noBrand_of_notMem (h : operatorName ≠ "") (hslash : '/' ∉ operatorName.toList) :
    noBrand (templateName r operatorName) = some (templateName r) := by
  have hall : ∀ c ∈ operatorName.toList, decide (c ≠ '/') = true := fun c hc ↦
    decide_eq_true fun heq ↦ hslash (heq ▸ hc)
  rw [noBrand_templateName r h, List.dropWhile_append_of_pos hall]
  refine congrArg some (String.ext ?_)
  simp [templateName, addOperator]

/-- With a slash in it what is behind the slash remains. -/
theorem noBrand_of_mem {first rest : List Char} (h : operatorName.toList = first ++ '/' :: rest)
    (hfirst : '/' ∉ first) :
    noBrand (templateName r operatorName) =
      some (String.ofList ('/' :: (rest ++ '/' :: (emailTemplateName r).toList))) := by
  have hne : operatorName ≠ "" := by
    rintro rfl
    simp at h
  have hall : ∀ c ∈ first, decide (c ≠ '/') = true := fun c hc ↦
    decide_eq_true fun heq ↦ hfirst (heq ▸ hc)
  rw [noBrand_templateName r hne, h, List.append_assoc, List.dropWhile_append_of_pos hall]
  simp

end Names

/-- A template that is missing or empty is looked for under the name without the operator. -/
theorem loadTemplate_of_empty {fs : FileSystem String} {templateDir name : String}
    (h : loadFile fs (templateDir ++ name ++ ".html") = "") :
    loadTemplate fs templateDir name =
      ((noBrand name).map fun shared ↦ loadFile fs (templateDir ++ shared ++ ".html")).getD "" := by
  unfold loadTemplate
  rw [h]
  rcases noBrand name with _ | shared <;> rfl

/-- The shared template is loaded if the name of the operator leads nowhere behind its first
slash. -/
theorem Unbranched.fallsBack {operatorName : String} (h : Unbranched operatorName) :
    FallsBack operatorName := by
  intro fs templateDir r content hempty hshared
  have hloaded : loadFile fs (templateDir ++ templateName r ++ ".html") = content := by
    unfold loadFile
    rw [hshared]
    rfl
  rw [loadTemplate_of_empty hempty]
  by_cases hne : operatorName = ""
  · subst hne
    rw [← hloaded, hempty]
    cases r <;> rfl
  by_cases hslash : '/' ∈ operatorName.toList
  · obtain ⟨first, rest, hsplit, hfirst⟩ := List.eq_append_cons_of_mem hslash
    have hrest : ∀ name ∈ components rest, Stays name := by
      intro name hname
      refine h name ?_
      rw [hsplit, components_append, components_of_notMem hfirst]
      exact hname
    have hpath : (templateDir ++ String.ofList ('/' :: (rest ++ '/' ::
        (emailTemplateName r).toList)) ++ ".html").toList =
        templateDir.toList ++ '/' :: (rest ++ '/' :: templateFile r) := by
      simp [templateFile]
    rw [noBrand_of_mem r hsplit hfirst, Option.map_some, Option.getD_some, ← hloaded]
    unfold loadFile
    rw [hpath, fs.read_insert _ _ hrest, toList_shared]
  · rw [noBrand_of_notMem r hne hslash]
    exact hloaded

/-- Of two names at most two templates have one. -/
theorem exists_templateFile_ne (x y : Option (List Char)) :
    ∃ r, x ≠ some (templateFile r) ∧ y ≠ some (templateFile r) := by
  have hcode : templateFile .FORGOT_PASSWORD ≠ templateFile .VERIFICATION_CODE := by decide
  have hinvite : templateFile .FORGOT_PASSWORD ≠ templateFile .EMAIL_INVITATION := by decide
  have hother : templateFile .VERIFICATION_CODE ≠ templateFile .EMAIL_INVITATION := by decide
  by_contra hnone
  have hall (r : EmailReason) : x = some (templateFile r) ∨ y = some (templateFile r) := by
    by_contra hr
    exact hnone ⟨r, not_or.mp hr⟩
  grind

/-- The shared template is loaded for an operator, whatever templates there are, exactly if its
name leads nowhere behind its first slash. -/
theorem fallsBack_iff (operatorName : String) :
    FallsBack operatorName ↔ Unbranched operatorName := by
  refine ⟨fun h ↦ ?_, Unbranched.fallsBack⟩
  by_contra hbranched
  obtain ⟨name, hname, hmoves⟩ : ∃ name ∈ (components operatorName.toList).tail, ¬ Stays name := by
    simpa [Unbranched] using hbranched
  have hne : operatorName ≠ "" := by
    rintro rfl
    cases hname
  have hslash : '/' ∈ operatorName.toList := by
    by_contra hslash
    rw [components_of_notMem hslash] at hname
    cases hname
  obtain ⟨first, rest, hsplit, hfirst⟩ := List.eq_append_cons_of_mem hslash
  have hrest : ∃ name ∈ components rest, ¬ Stays name := by
    rw [hsplit, components_append, components_of_notMem hfirst] at hname
    exact ⟨name, hname, hmoves⟩
  -- A working directory with one shared template whose name is not where either path is cut.
  obtain ⟨r, hcut, hcut'⟩ := exists_templateFile_ne
    (components (cString operatorName.toList)).getLast? (components (cString rest)).getLast?
  have hfile := templateFile_plain r
  have hspecific : loadFile (.single (templateFile r) "x")
      ("." ++ templateName r operatorName ++ ".html") = "" := by
    unfold loadFile
    rw [toList_specific r hne]
    exact congrArg (Option.getD · "")
      (read_single_below hfile.symm ⟨name, List.mem_of_mem_tail hname, hmoves⟩ hcut)
  have hshared : (FileSystem.single (templateFile r) "x").read
      ("." ++ templateName r ++ ".html").toList = some "x" := by
    rw [toList_shared]
    exact read_single_self hfile.1 hfile.2 (by cases r <;> decide) (by cases r <;> decide)
  have hloaded := h _ "." r "x" hspecific hshared
  rw [loadTemplate_of_empty hspecific, noBrand_of_mem r hsplit hfirst] at hloaded
  have hpath : ("." ++ String.ofList ('/' :: (rest ++ '/' :: (emailTemplateName r).toList)) ++
      ".html").toList = ['.'] ++ '/' :: (rest ++ '/' :: templateFile r) := by
    simp [templateFile]
  simp only [Option.map_some, Option.getD_some, loadFile, hpath,
    read_single_below hfile.symm hrest hcut', Option.getD_none] at hloaded
  exact absurd hloaded (by decide)

/-- An operator `acme/west` without templates of its own gets no text at all, although there is a
shared template. -/
theorem branched_operator_has_no_template : ¬ FallsBack "acme/west" := by
  intro h
  have hloaded := h (.single "password_reset.html".toList "Hello") "." .FORGOT_PASSWORD "Hello"
    (by decide) (by decide)
  exact absurd hloaded (by decide)

end OwSec

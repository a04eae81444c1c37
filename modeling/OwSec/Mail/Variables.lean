import OwSec.Kit.Substitution
import OwSec.Text

/-!
# Variables of messages

The text of a message is a template in which each attribute of the message replaces a
placeholder, `$` and a name in braces: `FillVariables`, the table of names in
`SMTPMailerService.h`, and `Utils::ReplaceVariables`, which replaces one variable after another.

What this should amount to is `RendersOnce`: each placeholder is replaced by the attribute of that
name, in whatever order the attributes come, and nothing that was put in is replaced once more.
Three of the names in the table are not those of their attributes, and a value may have a part in
the placeholder of another attribute; where neither is the case, the law holds.
-/

namespace OwSec

open Kit

/-! ## Attributes -/

/-- `MESSAGE_ATTRIBUTES`. -/
inductive MessageAttribute
  | RECIPIENT_EMAIL | RECIPIENT_FIRST_NAME | RECIPIENT_LAST_NAME | RECIPIENT_INITIALS
  | RECIPIENT_FULL_NAME | RECIPIENT_SALUTATION | ACTION_LINK | SUBJECT | TEMPLATE_TXT
  | TEMPLATE_HTML | LOGO | TEXT | CHALLENGE_CODE | SENDER | ACTION_LINK_HTML | USER_HELPER_EMAIL
  | SUB_HELPER_EMAIL | GLOBAL_USER_HELPER_EMAIL | GLOBAL_SUB_HELPER_EMAIL | USER_HELPER_SITE
  | SUB_HELPER_SITE | USER_SYSTEM_LOGIN | SUB_SYSTEM_LOGIN | USER_SIGNATURE | SUB_SIGNATURE
  | TRANSFER_REQUESTER | TRANSFER_ENTITY | ORIGINAL_REDIRECTOR | NEW_REDIRECTOR | TRANSFER_REASON
  | SERIAL_NUMBER | ORIGINAL_ENTITY_NAME | UUID
  deriving DecidableEq, Repr

namespace MessageAttribute

/-- The attributes in the order of the enumeration. -/
def all : List MessageAttribute := [
  .RECIPIENT_EMAIL, .RECIPIENT_FIRST_NAME, .RECIPIENT_LAST_NAME, .RECIPIENT_INITIALS,
  .RECIPIENT_FULL_NAME, .RECIPIENT_SALUTATION, .ACTION_LINK, .SUBJECT, .TEMPLATE_TXT,
  .TEMPLATE_HTML, .LOGO, .TEXT, .CHALLENGE_CODE, .SENDER, .ACTION_LINK_HTML, .USER_HELPER_EMAIL,
  .SUB_HELPER_EMAIL, .GLOBAL_USER_HELPER_EMAIL, .GLOBAL_SUB_HELPER_EMAIL, .USER_HELPER_SITE,
  .SUB_HELPER_SITE, .USER_SYSTEM_LOGIN, .SUB_SYSTEM_LOGIN, .USER_SIGNATURE, .SUB_SIGNATURE,
  .TRANSFER_REQUESTER, .TRANSFER_ENTITY, .ORIGINAL_REDIRECTOR, .NEW_REDIRECTOR, .TRANSFER_REASON,
  .SERIAL_NUMBER, .ORIGINAL_ENTITY_NAME, .UUID]

/-- The name of the attribute itself. -/
def ownName : MessageAttribute → String
  | .RECIPIENT_EMAIL => "RECIPIENT_EMAIL"
  | .RECIPIENT_FIRST_NAME => "RECIPIENT_FIRST_NAME"
  | .RECIPIENT_LAST_NAME => "RECIPIENT_LAST_NAME"
  | .RECIPIENT_INITIALS => "RECIPIENT_INITIALS"
  | .RECIPIENT_FULL_NAME => "RECIPIENT_FULL_NAME"
  | .RECIPIENT_SALUTATION => "RECIPIENT_SALUTATION"
  | .ACTION_LINK => "ACTION_LINK"
  | .SUBJECT => "SUBJECT"
  | .TEMPLATE_TXT => "TEMPLATE_TXT"
  | .TEMPLATE_HTML => "TEMPLATE_HTML"
  | .LOGO => "LOGO"
  | .TEXT => "TEXT"
  | .CHALLENGE_CODE => "CHALLENGE_CODE"
  | .SENDER => "SENDER"
  | .ACTION_LINK_HTML => "ACTION_LINK_HTML"
  | .USER_HELPER_EMAIL => "USER_HELPER_EMAIL"
  | .SUB_HELPER_EMAIL => "SUB_HELPER_EMAIL"
  | .GLOBAL_USER_HELPER_EMAIL => "GLOBAL_USER_HELPER_EMAIL"
  | .GLOBAL_SUB_HELPER_EMAIL => "GLOBAL_SUB_HELPER_EMAIL"
  | .USER_HELPER_SITE => "USER_HELPER_SITE"
  | .SUB_HELPER_SITE => "SUB_HELPER_SITE"
  | .USER_SYSTEM_LOGIN => "USER_SYSTEM_LOGIN"
  | .SUB_SYSTEM_LOGIN => "SUB_SYSTEM_LOGIN"
  | .USER_SIGNATURE => "USER_SIGNATURE"
  | .SUB_SIGNATURE => "SUB_SIGNATURE"
  | .TRANSFER_REQUESTER => "TRANSFER_REQUESTER"
  | .TRANSFER_ENTITY => "TRANSFER_ENTITY"
  | .ORIGINAL_REDIRECTOR => "ORIGINAL_REDIRECTOR"
  | .NEW_REDIRECTOR => "NEW_REDIRECTOR"
  | .TRANSFER_REASON => "TRANSFER_REASON"
  | .SERIAL_NUMBER => "SERIAL_NUMBER"
  | .ORIGINAL_ENTITY_NAME => "ORIGINAL_ENTITY_NAME"
  | .UUID => "UUID"

/-- `MessageAttributeToVar`: the name under which the attribute is put in. -/
def toVar : MessageAttribute → String
  | .RECIPIENT_EMAIL => "RECIPIENT_EMAIL"
  | .RECIPIENT_FIRST_NAME => "RECIPIENT_FIRST_NAME"
  | .RECIPIENT_LAST_NAME => "RECIPIENT_LAST_NAME"
  | .RECIPIENT_INITIALS => "RECIPIENT_INITIALS"
  | .RECIPIENT_FULL_NAME => "RECIPIENT_FULL_NAME"
  | .RECIPIENT_SALUTATION => "RECIPIENT_SALUTATION"
  | .ACTION_LINK => "ACTION_LINK"
  | .SUBJECT => "SUBJECT"
  | .TEMPLATE_TXT => "TEMPLATE_TXT"
  | .TEMPLATE_HTML => "TEMPLATE_HTML"
  | .LOGO => "LOGO"
  | .TEXT => "TEXT"
  | .CHALLENGE_CODE => "CHALLENGE_CODE"
  | .SENDER => "SENDER"
  | .ACTION_LINK_HTML => "SUB_SYSTEM_LOGIN"
  | .USER_HELPER_EMAIL => "USER_HELPER_EMAIL"
  | .SUB_HELPER_EMAIL => "SUB_HELPER_EMAIL"
  | .GLOBAL_USER_HELPER_EMAIL => "GLOBAL_USER_HELPER_EMAIL"
  | .GLOBAL_SUB_HELPER_EMAIL => "GLOBAL_SUB_HELPER_EMAIL"
  | .USER_HELPER_SITE => "USER_HELPER_SITE"
  | .SUB_HELPER_SITE => "SUB_USER_HELPER_SITE"
  | .USER_SYSTEM_LOGIN => "USER_SYSTEM_LOGIN"
  | .SUB_SYSTEM_LOGIN => "SUB_SYSTEM_LOGIN"
  | .USER_SIGNATURE => "USER_SIGNATURE"
  | .SUB_SIGNATURE => "SUB_USER_SIGNATURE"
  | .TRANSFER_REQUESTER => "TRANSFER_REQUESTER"
  | .TRANSFER_ENTITY => "TRANSFER_ENTITY"
  | .ORIGINAL_REDIRECTOR => "ORIGINAL_REDIRECTOR"
  | .NEW_REDIRECTOR => "NEW_REDIRECTOR"
  | .TRANSFER_REASON => "TRANSFER_REASON"
  | .SERIAL_NUMBER => "SERIAL_NUMBER"
  | .ORIGINAL_ENTITY_NAME => "ORIGINAL_ENTITY_NAME"
  | .UUID => "UUID"

theorem mem_all (a : MessageAttribute) : a ∈ all := by
  cases a <;> decide

theorem nodup_all : all.Nodup := by decide

theorem ownName_injective : Function.Injective ownName := by
  have hnodup : (all.map ownName).Nodup := by decide +kernel
  intro a b h
  exact List.inj_on_of_nodup_map hnodup a.mem_all b.mem_all h

/-- A name that is not the attribute's own is the name of none that is. -/
theorem toVar_ne_ownName {a : MessageAttribute} (h : a.toVar ≠ a.ownName) (b : MessageAttribute) :
    b.toVar ≠ a.ownName := by
  cases a with
  | ACTION_LINK_HTML => cases b <;> decide
  | SUB_HELPER_SITE => cases b <;> decide
  | SUB_SIGNATURE => cases b <;> decide
  | _ => exact absurd rfl h

/-- An attribute whose own name is in the table is under it there. -/
theorem toVar_of_ownName {a b : MessageAttribute} (h : b.ownName = a.toVar) :
    b.toVar = a.toVar := by
  by_cases hown : a.toVar = a.ownName
  · rw [ownName_injective (h.trans hown)]
  · cases a with
    | ACTION_LINK_HTML =>
      have hb : b = SUB_SYSTEM_LOGIN := ownName_injective h
      rw [hb]
      rfl
    | SUB_HELPER_SITE => exact absurd h (by cases b <;> decide)
    | SUB_SIGNATURE => exact absurd h (by cases b <;> decide)
    | _ => exact absurd rfl hown

theorem plain_ownName (a : MessageAttribute) :
    '$' ∉ a.ownName.toList ∧ '\x7d' ∉ a.ownName.toList := by
  cases a <;> decide

/-- The names have no characters with which a placeholder opens or closes. -/
theorem plain (a : MessageAttribute) :
    ('$' ∉ a.toVar.toList ∧ '\x7d' ∉ a.toVar.toList) ∧
      '$' ∉ a.ownName.toList ∧ '\x7d' ∉ a.ownName.toList := by
  refine ⟨?_, plain_ownName a⟩
  by_cases hown : a.toVar = a.ownName
  · rw [hown]
    exact plain_ownName a
  · cases a with
    | ACTION_LINK_HTML => exact plain_ownName SUB_SYSTEM_LOGIN
    | SUB_HELPER_SITE => decide
    | SUB_SIGNATURE => decide
    | _ => exact absurd rfl hown

end MessageAttribute

/-- `MessageAttributes`, a map ordered by the enumeration. -/
abbrev MessageAttributes := MessageAttribute → Option String

/-- `FillVariables`. -/
def fillVariables (attrs : MessageAttributes) : List (String × String) :=
  MessageAttribute.all.filterMap fun variableName ↦
    (attrs variableName).map fun value ↦ (variableName.toVar, value)

/-! ## Rendering -/

/-- `"${" + Variable + "}"`. -/
def placeholder (variableName : String) : String := "$\x7b" ++ variableName ++ "\x7d"

/-- `Poco::replaceInPlace`. -/
def replaceInPlace (str pattern value : String) : String :=
  String.ofList (replaceAll (pattern.toList, value.toList) str.toList)

/-- `Utils::ReplaceVariables`. -/
def replaceVariables (content : String) (p : List (String × String)) : String :=
  p.foldl (fun content e ↦ replaceInPlace content (placeholder e.1) e.2) content

/-! ## What it should amount to -/

/-- The variables as a table of patterns. -/
def patternTable (p : List (String × String)) : List (List Char × List Char) :=
  p.map fun e ↦ ((placeholder e.1).toList, e.2.toList)

/-- The attributes under their own names. -/
def ownVariables (attrs : MessageAttributes) : List (String × String) :=
  MessageAttribute.all.filterMap fun a ↦ (attrs a).map fun value ↦ (a.ownName, value)

/-- The template with every placeholder replaced, all at once, by the attribute of that name. -/
def substituted (attrs : MessageAttributes) (template : String) : String :=
  String.ofList (simultaneous (patternTable (ownVariables attrs)) template.toList)

/-- Rendering replaces the placeholders of the template and nothing else, in whatever order the
attributes come. -/
structure RendersOnce (attrs : MessageAttributes) : Prop where
  /-- Distinct attributes never map to the same placeholder. -/
  distinct : ∀ a b, attrs a ≠ none → attrs b ≠ none → a.toVar = b.toVar → a = b
  /-- Each placeholder is replaced by the attribute whose own name it has. -/
  substituted : ∀ template p, p.Perm (fillVariables attrs) →
    replaceVariables template p = substituted attrs template
  /-- Text that was inserted is never expanded again: what the next variable finds is left of the
  template. -/
  once : ∀ template p, p.Perm (fillVariables attrs) → ∀ before e after, p = before ++ e :: after →
    (replaceVariables template before).toList =
      flatten (marked (patternTable before) template.toList) ∧
    Stands (placeholder e.1).toList (marked (patternTable before) template.toList)

/-- The attributes are put in under their own names. -/
def OwnNames (attrs : MessageAttributes) : Prop := ∀ a, attrs a ≠ none → a.toVar = a.ownName

/-- No value has a part in the placeholder of another attribute. -/
def InertValues (attrs : MessageAttributes) : Prop :=
  ∀ a b v w, a ≠ b → attrs a = some v → attrs b = some w →
    Inert v.toList (placeholder b.toVar).toList

section Rendering

variable {attrs : MessageAttributes}

theorem toList_placeholder (name : String) :
    (placeholder name).toList = '$' :: ('\x7b' :: name.toList ++ ['\x7d']) := by
  simp [placeholder]

theorem placeholder_injective : Function.Injective placeholder := by
  intro a b h
  have hlists := congrArg String.toList h
  rw [toList_placeholder, toList_placeholder] at hlists
  exact String.ext (by simpa using hlists)

/-- Replacing the variables of a text is replacing the patterns of its characters. -/
theorem toList_replaceVariables (content : String) (p : List (String × String)) :
    (replaceVariables content p).toList = replaceEach (patternTable p) content.toList := by
  induction p generalizing content with
  | nil => rfl
  | cons e p ih =>
    refine (ih _).trans ?_
    simp [replaceEach, patternTable, replaceInPlace]

theorem bracketed_placeholder {name : String} (h : '$' ∉ name.toList ∧ '\x7d' ∉ name.toList) :
    Bracketed '$' '\x7d' (placeholder name).toList :=
  ⟨'\x7b' :: name.toList, toList_placeholder name, by simpa using h.1, by simpa using h.2⟩

/-- What a table of attributes under some names has for them. -/
theorem mem_filterMap_attrs {f : MessageAttribute → String} {e : String × String} :
    e ∈ MessageAttribute.all.filterMap (fun a ↦ (attrs a).map fun value ↦ (f a, value)) ↔
      ∃ a value, attrs a = some value ∧ e = (f a, value) := by
  simp only [List.mem_filterMap, MessageAttribute.mem_all, true_and, Option.map_eq_some_iff]
  constructor
  · rintro ⟨a, value, hvalue, rfl⟩
    exact ⟨a, value, hvalue, rfl⟩
  · rintro ⟨a, value, hvalue, rfl⟩
    exact ⟨a, value, hvalue, rfl⟩

/-- What holds of any two attributes of the map holds along a table of them. -/
theorem pairwise_filterMap_attrs {f : MessageAttribute → String}
    {R : String × String → String × String → Prop}
    (h : ∀ a b v w, a ≠ b → attrs a = some v → attrs b = some w → R (f a, v) (f b, w)) :
    (MessageAttribute.all.filterMap fun a ↦ (attrs a).map fun value ↦ (f a, value)).Pairwise R := by
  refine List.Pairwise.filterMap _ ?_ MessageAttribute.nodup_all
  intro a b hne e he e' he'
  obtain ⟨v, hv, rfl⟩ := Option.map_eq_some_iff.mp he
  obtain ⟨w, hw, rfl⟩ := Option.map_eq_some_iff.mp he'
  exact h a b v w hne hv hw

/-- Attributes under distinct plain names are a table of patterns. -/
theorem patterns_filterMap_attrs {f : MessageAttribute → String}
    (hplain : ∀ a, '$' ∉ (f a).toList ∧ '\x7d' ∉ (f a).toList)
    (hdistinct : ∀ a b, attrs a ≠ none → attrs b ≠ none → f a = f b → a = b) :
    Patterns '$' '\x7d' (patternTable
      (MessageAttribute.all.filterMap fun a ↦ (attrs a).map fun value ↦ (f a, value))) where
  distinct := by decide
  bracketed := by
    intro row hrow
    obtain ⟨e, he, rfl⟩ := List.mem_map.mp hrow
    obtain ⟨a, value, -, rfl⟩ := mem_filterMap_attrs.mp he
    exact bracketed_placeholder (hplain a)
  nodup := by
    rw [patternTable, List.map_map, List.Nodup, List.pairwise_map]
    refine pairwise_filterMap_attrs fun a b v w hne hv hw heq ↦ hne ?_
    refine hdistinct a b (by simp [hv]) (by simp [hw]) (placeholder_injective (String.ext ?_))
    exact heq

theorem patterns_ownVariables (attrs : MessageAttributes) :
    Patterns '$' '\x7d' (patternTable (ownVariables attrs)) :=
  patterns_filterMap_attrs (fun a ↦ a.plain.2) fun _ _ _ _ h ↦ MessageAttribute.ownName_injective h

/-- Under their own names the attributes are the variables. -/
theorem OwnNames.fillVariables_eq (h : OwnNames attrs) :
    fillVariables attrs = ownVariables attrs := by
  refine List.filterMap_congr fun a _ ↦ ?_
  rcases hvalue : attrs a with _ | value
  · rfl
  · rw [Option.map_some, Option.map_some, h a (by simp [hvalue])]

theorem OwnNames.distinct (h : OwnNames attrs) (a b : MessageAttribute) (ha : attrs a ≠ none)
    (hb : attrs b ≠ none) (heq : a.toVar = b.toVar) : a = b := by
  rw [h a ha, h b hb] at heq
  exact MessageAttribute.ownName_injective heq

/-- Where the variables stand in what is left of the template, rendering is a substitution. -/
theorem replaceVariables_eq {p : List (String × String)}
    (hp : Patterns '$' '\x7d' (patternTable p)) (template : String)
    (hstands : ∀ before e after, p = before ++ e :: after →
      Stands (placeholder e.1).toList (marked (patternTable before) template.toList)) :
    (replaceVariables template p).toList = simultaneous (patternTable p) template.toList := by
  rw [toList_replaceVariables]
  refine replaceEach_eq hp template.toList ?_
  intro before row after heq
  obtain ⟨xs, rest, rfl, rfl, hrest⟩ := List.map_eq_append_iff.mp heq
  obtain ⟨e, ys, rfl, rfl, -⟩ := List.map_eq_cons_iff.mp hrest
  exact hstands xs e ys rfl

/-! ## When it does -/

/-- Values that have no part in the placeholders of others keep out of every order of them. -/
theorem InertValues.pairwise (h : InertValues attrs) {p : List (String × String)}
    (hperm : p.Perm (fillVariables attrs)) :
    (patternTable p).Pairwise fun row row' ↦ Inert row.2 row'.1 := by
  -- Of two attributes neither has a part in the placeholder of the other, so the order is free.
  have hboth : (fillVariables attrs).Pairwise fun e e' ↦
      Inert e.2.toList (placeholder e'.1).toList ∧ Inert e'.2.toList (placeholder e.1).toList :=
    pairwise_filterMap_attrs fun a b v w hne hv hw ↦ ⟨h a b v w hne hv hw, h b a w v hne.symm hw hv⟩
  have hsymm := (hperm.pairwise_iff fun hpair ↦ And.symm hpair).mpr hboth
  exact List.pairwise_map.mpr (hsymm.imp And.left)

/-- Own names and inert values are enough. -/
theorem rendersOnce_of_inert (hown : OwnNames attrs) (hinert : InertValues attrs) :
    RendersOnce attrs := by
  have hvariables := hown.fillVariables_eq
  have hstands {p : List (String × String)} (hperm : p.Perm (fillVariables attrs))
      (hp : Patterns '$' '\x7d' (patternTable p)) (template : String) :
      ∀ before e after, p = before ++ e :: after →
        Stands (placeholder e.1).toList (marked (patternTable before) template.toList) := by
    rintro before e after rfl
    exact (stands_iff hp).mpr (hinert.pairwise hperm) template.toList (patternTable before)
      ((placeholder e.1).toList, e.2.toList) (patternTable after) (by simp [patternTable])
  have hpatterns {p : List (String × String)} (hperm : p.Perm (fillVariables attrs)) :
      Patterns '$' '\x7d' (patternTable p) :=
    (patterns_ownVariables attrs).perm (hvariables ▸ hperm.symm.map _)
  constructor
  case distinct => exact hown.distinct
  case substituted =>
    intro template p hperm
    have hp := hpatterns hperm
    refine String.ext ?_
    rw [replaceVariables_eq hp template (hstands hperm hp template), OwSec.substituted,
      String.toList_ofList]
    exact expand_congr (hp.matching_perm (hvariables ▸ hperm.map _)) 0 template.toList
  case once =>
    intro template p hperm before e after heq
    have hp := hpatterns hperm
    have hbefore : Patterns '$' '\x7d' (patternTable before) := by
      rw [heq, patternTable, List.map_append] at hp
      exact hp.of_append
    refine ⟨?_, hstands hperm hp template before e after heq⟩
    rw [flatten_marked]
    refine replaceVariables_eq hbefore template fun xs e' ys hsplit ↦ ?_
    exact hstands hperm hp template xs e' (ys ++ e :: after) (by rw [heq, hsplit]; simp)

/-- The placeholder of an attribute of the map is replaced by its value. -/
theorem simultaneous_attr {f : MessageAttribute → String}
    (hp : Patterns '$' '\x7d' (patternTable
      (MessageAttribute.all.filterMap fun b ↦ (attrs b).map fun v ↦ (f b, v))))
    {a : MessageAttribute} {value : String} (ha : attrs a = some value) :
    simultaneous (patternTable
      (MessageAttribute.all.filterMap fun b ↦ (attrs b).map fun v ↦ (f b, v)))
      (placeholder (f a)).toList = value.toList := by
  have hmem : (f a, value) ∈
      MessageAttribute.all.filterMap fun b ↦ (attrs b).map fun v ↦ (f b, v) :=
    mem_filterMap_attrs.mpr ⟨a, value, ha, rfl⟩
  exact simultaneous_of_mem hp (List.mem_map_of_mem hmem)

/-- Any other placeholder stays. -/
theorem simultaneous_other {f : MessageAttribute → String}
    (hp : Patterns '$' '\x7d' (patternTable
      (MessageAttribute.all.filterMap fun b ↦ (attrs b).map fun v ↦ (f b, v))))
    {name : String} (hname : '$' ∉ name.toList ∧ '\x7d' ∉ name.toList)
    (hnot : ∀ b, attrs b ≠ none → f b ≠ name) :
    simultaneous (patternTable
      (MessageAttribute.all.filterMap fun b ↦ (attrs b).map fun v ↦ (f b, v)))
      (placeholder name).toList = (placeholder name).toList := by
  refine simultaneous_of_notMem hp (bracketed_placeholder hname) fun row hrow heq ↦ ?_
  obtain ⟨e, he, rfl⟩ := List.mem_map.mp hrow
  obtain ⟨b, v, hv, rfl⟩ := mem_filterMap_attrs.mp he
  exact hnot b (by simp [hv]) (placeholder_injective (String.ext heq))

/-- Whoever is under another name is not replaced under its own. -/
theorem RendersOnce.ownNames (h : RendersOnce attrs) : OwnNames attrs := by
  intro a ha
  obtain ⟨value, hvalue⟩ := Option.ne_none_iff_exists'.mp ha
  by_contra hname
  have hp : Patterns '$' '\x7d' (patternTable (fillVariables attrs)) :=
    patterns_filterMap_attrs (fun b ↦ b.plain.1) h.distinct
  have hown := patterns_ownVariables attrs
  have hsame (template : String) :
      simultaneous (patternTable (fillVariables attrs)) template.toList =
        simultaneous (patternTable (ownVariables attrs)) template.toList := by
    have hrendered := h.substituted template _ (.refl _)
    rw [← replaceVariables_eq hp template fun before e after heq ↦
      (h.once template _ (.refl _) before e after heq).2, hrendered, OwSec.substituted,
      String.toList_ofList]
  -- Its own placeholder stays, so the value is that placeholder.
  have hstays : (placeholder a.ownName).toList = value.toList := calc
    (placeholder a.ownName).toList
      = simultaneous (patternTable (fillVariables attrs)) (placeholder a.ownName).toList :=
        (simultaneous_other hp a.plain.2 fun b _ ↦
          MessageAttribute.toVar_ne_ownName hname b).symm
    _ = simultaneous (patternTable (ownVariables attrs)) (placeholder a.ownName).toList :=
        hsame _
    _ = value.toList := simultaneous_attr hown hvalue
  -- The placeholder of the table is replaced, and should have stayed.
  have hreplaced : value.toList = (placeholder a.toVar).toList := calc
    value.toList
      = simultaneous (patternTable (fillVariables attrs)) (placeholder a.toVar).toList :=
        (simultaneous_attr hp hvalue).symm
    _ = simultaneous (patternTable (ownVariables attrs)) (placeholder a.toVar).toList := hsame _
    _ = (placeholder a.toVar).toList := simultaneous_other hown a.plain.1 fun b hb heq ↦ by
        obtain rfl := h.distinct b a hb ha (MessageAttribute.toVar_of_ownName heq)
        exact hname heq.symm
  exact hname (placeholder_injective (String.ext (hreplaced.symm.trans hstays.symm)))

/-- In whatever order the attributes come, no value has a part in a later placeholder. -/
theorem RendersOnce.pairwise (h : RendersOnce attrs) {p : List (String × String)}
    (hperm : p.Perm (fillVariables attrs)) :
    p.Pairwise fun e e' ↦ Inert e.2.toList (placeholder e'.1).toList := by
  have hp : Patterns '$' '\x7d' (patternTable (fillVariables attrs)) :=
    patterns_filterMap_attrs (fun b ↦ b.plain.1) h.distinct
  have hrows := (stands_iff (hp.perm (hperm.symm.map _))).mp fun text before row after heq ↦ by
    obtain ⟨xs, rest, rfl, rfl, hrest⟩ := List.map_eq_append_iff.mp heq
    obtain ⟨e, ys, rfl, rfl, -⟩ := List.map_eq_cons_iff.mp hrest
    have honce := (h.once (String.ofList text) _ hperm xs e ys rfl).2
    rwa [String.toList_ofList] at honce
  exact List.pairwise_map.mp hrows

/-- A value that has a part in the placeholder of another attribute is expanded with it. -/
theorem RendersOnce.inertValues (h : RendersOnce attrs) : InertValues attrs := by
  intro a b v w hne hv hw
  have hvar : a.toVar ≠ b.toVar := fun heq ↦ hne (h.distinct a b (by simp [hv]) (by simp [hw]) heq)
  have hmem {c : MessageAttribute} {u : String} (hc : attrs c = some u) :
      (c.toVar, u) ∈ fillVariables attrs :=
    (mem_filterMap_attrs (f := MessageAttribute.toVar)).mpr ⟨c, u, hc, rfl⟩
  -- In the order of the map one comes first, in the reverse order the other.
  have hall : ∀ e ∈ fillVariables attrs, ∀ e' ∈ fillVariables attrs, e.1 ≠ e'.1 →
      Inert e.2.toList (placeholder e'.1).toList := by
    refine List.Pairwise.forall_of_forall_of_flip (fun e _ hself ↦ absurd rfl hself) ?_ ?_
    · refine (h.pairwise (.refl _)).imp ?_
      intro e e' hinert _
      exact hinert
    · refine (List.pairwise_reverse.mp (h.pairwise (List.reverse_perm _))).imp ?_
      intro e e' hinert _
      exact hinert
  exact hall (a.toVar, v) (hmem hv) (b.toVar, w) (hmem hw) hvar

/-- Rendering a template with the attributes is what it should be exactly if they are put in under
their own names and no value has a part in the placeholder of another. -/
theorem rendersOnce_iff (attrs : MessageAttributes) :
    RendersOnce attrs ↔ OwnNames attrs ∧ InertValues attrs :=
  ⟨fun h ↦ ⟨h.ownNames, h.inertValues⟩, fun h ↦ rendersOnce_of_inert h.1 h.2⟩

end Rendering

/-- The site of the sub-system's helpers, under the name of that attribute, is not put in. -/
theorem helper_site_is_not_put_in :
    ¬ RendersOnce fun a ↦ if a = .SUB_HELPER_SITE then some "https://help" else none := by
  intro h
  have hrendered := h.substituted "See $\x7bSUB_HELPER_SITE\x7d" _ (.refl _)
  exact absurd hrendered (by decide)

end OwSec

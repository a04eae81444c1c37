import OwSec.Kit.Assignments
import OwSec.Text

/-!
# Matching a path against end points

`RESTAPIHandler::ParseBindings` (`framework/RESTAPI_Handler.h`) tries the end points of a handler
in order.  Path and end point are cut at the slashes and compared segment by segment; where they
differ and the segment of the end point is a parameter, the segment of the path is bound to its
name.  The map of the bindings is emptied once, before the first end point, and a segment of the
path that is written like the parameter itself is not bound.

So the bindings are what all end points up to the first one that fits have assigned, in order,
and `Clean` says when this is what the fitting end point alone asks for.
-/

namespace OwSec

open Kit

namespace RestApi

/-- `RESTAPIHandler::BindingMap`. -/
abbrev BindingMap := Cache String String

/-- `ParamItems[i][0] == '{'`; an empty segment starts with a NUL. -/
def isParameter (item : String) : Bool := item.toList.head? == some '{'

/-- `Poco::toLower(ParamItems[i].substr(1, ParamItems[i].size() - 2))`. -/
def parameterName (item : String) : String :=
  toLower (String.ofList ((item.toList.drop 1).take (item.length - 2)))

/-- The loop over the segments of one end point: whether it came to the end, and the bindings. -/
def matchItems : List String → List String → BindingMap → Bool × BindingMap
  | pathItem :: path, paramItem :: params, bindings =>
    if pathItem ≠ paramItem then
      if isParameter paramItem then
        matchItems path params (bindings.insert (parameterName paramItem) pathItem)
      else (false, bindings)
    else matchItems path params bindings
  | _, _, bindings => (true, bindings)

/-- The loop over the end points. -/
def matchEndPoints (path : List String) : List String → BindingMap → Bool × BindingMap
  | [], bindings => (false, bindings)
  | endPoint :: endPoints, bindings =>
    let params := tokenize '/' endPoint
    if path.length ≠ params.length then matchEndPoints path endPoints bindings
    else
      match matchItems path params bindings with
      | (true, bindings) => (true, bindings)
      | (false, bindings) => matchEndPoints path endPoints bindings

/-- `RESTAPIHandler::ParseBindings`. -/
def parseBindings (request : String) (endPoints : List String) : Bool × BindingMap :=
  matchEndPoints (tokenize '/' request) endPoints ∅

/-! ## Fitting end points -/

/-- The segments agree wherever the end point has no parameter. -/
def Agree : List String → List String → Prop :=
  List.Forall₂ fun pathItem paramItem ↦ pathItem = paramItem ∨ isParameter paramItem = true

/-- The path has as many segments as the end point, and agrees with it. -/
def FitsEndPoint (request endPoint : String) : Prop := Agree (tokenize '/' request) (tokenize '/' endPoint)

instance (request endPoint : String) : Decidable (FitsEndPoint request endPoint) :=
  inferInstanceAs (Decidable (List.Forall₂ _ _ _))

/-- The parameters among the segments, by name, with the segments of the path at their places. -/
def parameterItems (path params : List String) : List (String × String) :=
  (path.zip params).filterMap fun items ↦
    if isParameter items.2 then some (parameterName items.2, items.1) else none

/-- The parameters of an end point, by name, with what the path has at their places. -/
def parameters (request endPoint : String) : List (String × String) :=
  parameterItems (tokenize '/' request) (tokenize '/' endPoint)

/-- What the loop over the segments assigns: it stops at the first segment that disagrees, and
passes over a parameter that the path has literally. -/
def boundItems : List String → List String → List (String × String)
  | pathItem :: path, paramItem :: params =>
    if pathItem ≠ paramItem then
      if isParameter paramItem then
        (parameterName paramItem, pathItem) :: boundItems path params
      else []
    else boundItems path params
  | _, _ => []

/-- What trying an end point assigns. -/
def bound (request endPoint : String) : List (String × String) :=
  if (tokenize '/' request).length ≠ (tokenize '/' endPoint).length then []
  else boundItems (tokenize '/' request) (tokenize '/' endPoint)

section Items

variable {path params : List String}

theorem matchItems_snd (bindings : BindingMap) :
    (matchItems path params bindings).2 = bindings.assign (boundItems path params) := by
  fun_induction matchItems path params bindings with
  | case1 bindings pathItem path paramItem params hne hparam ih =>
    rw [ih, boundItems, if_pos hne, if_pos hparam]
    rfl
  | case2 bindings pathItem path paramItem params hne hparam =>
    rw [boundItems, if_pos hne, if_neg hparam]
    rfl
  | case3 bindings pathItem path paramItem params heq ih => rw [ih, boundItems, if_neg heq]
  | case4 path params bindings h =>
    rw [boundItems]
    · rfl
    · exact h

/-- The loop comes to the end exactly where the segments agree. -/
theorem matchItems_fst_iff (hlength : path.length = params.length) (bindings : BindingMap) :
    (matchItems path params bindings).1 = true ↔ Agree path params := by
  fun_induction matchItems path params bindings with
  | case1 bindings pathItem path paramItem params hne hparam ih =>
    rw [ih (Nat.succ.inj hlength), Agree, List.forall₂_cons]
    exact ⟨fun h ↦ ⟨.inr hparam, h⟩, And.right⟩
  | case2 bindings pathItem path paramItem params hne hparam =>
    rw [Agree, List.forall₂_cons]
    refine ⟨nofun, fun h ↦ ?_⟩
    exact absurd h.1 (not_or.mpr ⟨hne, hparam⟩)
  | case3 bindings pathItem path paramItem params heq ih =>
    rw [ih (Nat.succ.inj hlength), Agree, List.forall₂_cons]
    exact ⟨fun h ↦ ⟨.inl (not_not.mp heq), h⟩, And.right⟩
  | case4 path params bindings h =>
    rcases path with _ | ⟨pathItem, path⟩
    · obtain rfl := List.length_eq_zero_iff.mp hlength.symm
      exact ⟨fun _ ↦ List.Forall₂.nil, fun _ ↦ rfl⟩
    · rcases params with _ | ⟨paramItem, params⟩
      · cases hlength
      · exact absurd rfl (h _ _ _ _ rfl)

/-- What is bound stands at the place of a parameter. -/
theorem boundItems_subset : boundItems path params ⊆ parameterItems path params := by
  unfold parameterItems
  fun_induction boundItems path params with
  | case1 pathItem path paramItem params hne hparam ih =>
    simp only [List.zip_cons_cons, List.filterMap_cons, hparam, if_true]
    exact List.cons_subset_cons _ ih
  | case2 => exact List.nil_subset _
  | case3 pathItem path paramItem params heq ih =>
    rw [List.zip_cons_cons, List.filterMap_cons]
    split
    · exact ih
    · exact List.Subset.trans ih (List.subset_cons_self _ _)
  | case4 => exact List.nil_subset _

end Items

/-! ## The bindings of a request -/

section EndPoints

variable {request : String}

theorem fits_length {endPoint : String} (h : FitsEndPoint request endPoint) :
    (tokenize '/' request).length = (tokenize '/' endPoint).length := h.length_eq

theorem bound_subset (endPoint : String) :
    bound request endPoint ⊆ parameters request endPoint := by
  unfold bound
  split
  · exact List.nil_subset _
  · exact boundItems_subset

/-- An end point that does not fit leaves what it has bound. -/
theorem matchEndPoints_cons_of_not_fits {endPoint : String} (h : ¬ FitsEndPoint request endPoint)
    (endPoints : List String) (bindings : BindingMap) :
    matchEndPoints (tokenize '/' request) (endPoint :: endPoints) bindings =
      matchEndPoints (tokenize '/' request) endPoints
        (bindings.assign (bound request endPoint)) := by
  rw [matchEndPoints]
  unfold bound
  by_cases hlength : (tokenize '/' request).length ≠ (tokenize '/' endPoint).length
  · rw [if_pos hlength, if_pos hlength]
    rfl
  · rw [if_neg hlength, if_neg hlength]
    have hfst : (matchItems (tokenize '/' request) (tokenize '/' endPoint) bindings).1 = false :=
      Bool.eq_false_iff.mpr fun htrue ↦ h ((matchItems_fst_iff (not_not.mp hlength) _).mp htrue)
    rw [← matchItems_snd]
    rcases hrun : matchItems (tokenize '/' request) (tokenize '/' endPoint) bindings with
      ⟨found, bindings'⟩
    rw [hrun] at hfst
    cases hfst
    rfl

/-- At an end point that fits the search ends. -/
theorem matchEndPoints_cons_of_fits {endPoint : String} (h : FitsEndPoint request endPoint)
    (endPoints : List String) (bindings : BindingMap) :
    matchEndPoints (tokenize '/' request) (endPoint :: endPoints) bindings =
      (true, bindings.assign (bound request endPoint)) := by
  rw [matchEndPoints]
  unfold bound
  rw [if_neg (not_not.mpr (fits_length h)), if_neg (not_not.mpr (fits_length h)),
    ← matchItems_snd]
  have hfst := (matchItems_fst_iff (fits_length h) bindings).mpr h
  rcases hrun : matchItems (tokenize '/' request) (tokenize '/' endPoint) bindings with
    ⟨found, bindings'⟩
  rw [hrun] at hfst
  cases hfst
  rfl

/-- Whether an end point fits does not depend on what is bound already. -/
theorem matchEndPoints_fst_iff (endPoints : List String) (bindings : BindingMap) :
    (matchEndPoints (tokenize '/' request) endPoints bindings).1 = true ↔
      ∃ endPoint ∈ endPoints, FitsEndPoint request endPoint := by
  induction endPoints generalizing bindings with
  | nil => simp [matchEndPoints]
  | cons endPoint endPoints ih =>
    by_cases h : FitsEndPoint request endPoint
    · rw [matchEndPoints_cons_of_fits h]
      exact ⟨fun _ ↦ ⟨endPoint, List.mem_cons_self, h⟩, fun _ ↦ rfl⟩
    · rw [matchEndPoints_cons_of_not_fits h, ih]
      simp [h]

/-- The end points `before` do not fit, and `endPoint` comes next and fits. -/
structure FirstFit (request : String) (endPoints before : List String) (endPoint : String) :
    Prop where
  split : ∃ after, endPoints = before ++ endPoint :: after
  before : ∀ e ∈ before, ¬ FitsEndPoint request e
  fits : FitsEndPoint request endPoint

/-- The bindings are what has been assigned up to the first end point that fits. -/
theorem matchEndPoints_snd {endPoints before : List String} {endPoint : String}
    (h : FirstFit request endPoints before endPoint) (bindings : BindingMap) :
    (matchEndPoints (tokenize '/' request) endPoints bindings).2 =
      (bindings.assign (before.flatMap (bound request))).assign (bound request endPoint) := by
  obtain ⟨⟨after, rfl⟩, hbefore, hfits⟩ := h
  induction before generalizing bindings with
  | nil =>
    rw [List.nil_append, matchEndPoints_cons_of_fits hfits]
    rfl
  | cons e before ih =>
    rw [List.cons_append, matchEndPoints_cons_of_not_fits (hbefore e List.mem_cons_self),
      ih _ fun e' he' ↦ hbefore e' (List.mem_cons_of_mem e he')]
    simp only [Cache.assign, List.flatMap_cons, List.foldl_append]

/-- A list with an end point that fits has a first one. -/
theorem exists_firstFit {endPoints : List String} {endPoint : String} (hmem : endPoint ∈ endPoints)
    (hfits : FitsEndPoint request endPoint) : ∃ before first, FirstFit request endPoints before first := by
  induction endPoints with
  | nil => cases hmem
  | cons e endPoints ih =>
    by_cases he : FitsEndPoint request e
    · exact ⟨[], e, ⟨endPoints, rfl⟩, nofun, he⟩
    · have hrest : endPoint ∈ endPoints := by
        rcases List.mem_cons.mp hmem with rfl | hrest
        · exact absurd hfits he
        · exact hrest
      obtain ⟨before, first, ⟨after, rfl⟩, hbefore, hfirst⟩ := ih hrest
      exact ⟨e :: before, first, ⟨after, rfl⟩, List.forall_mem_cons.mpr ⟨he, hbefore⟩, hfirst⟩

end EndPoints

/-- A path is taken exactly if some end point fits, and then the bindings are the parameters of the
first end point that does. -/
structure RoutingLaw (request : String) (endPoints : List String) : Prop where
  found : (parseBindings request endPoints).1 = true ↔ ∃ endPoint ∈ endPoints, FitsEndPoint request endPoint
  bindings : ∀ before endPoint, FirstFit request endPoints before endPoint → ∀ name segment,
    (parseBindings request endPoints).2.lookup name = some segment ↔
      (name, segment) ∈ parameters request endPoint

/-- What `before` and `endPoint` have to be like for the bindings to be the parameters of
`endPoint`. -/
structure Clean (request : String) (before : List String) (endPoint : String) : Prop where
  /-- Parameters of the same name stand at the same segment. -/
  unambiguous : ∀ name segment segment', (name, segment) ∈ parameters request endPoint →
    (name, segment') ∈ parameters request endPoint → segment = segment'
  /-- What was bound before is a parameter here too. -/
  leftOver : ∀ name segment, (name, segment) ∈ before.flatMap (bound request) →
    ∃ segment', (name, segment') ∈ parameters request endPoint
  /-- A parameter that the path has literally was bound so before. -/
  literal : ∀ name segment, (name, segment) ∈ parameters request endPoint →
    (name, segment) ∉ bound request endPoint →
      lastValue (before.flatMap (bound request)) name = some segment

/-- The bindings are right exactly where the first end point that fits is clean. -/
theorem routingLaw_iff (request : String) (endPoints : List String) :
    RoutingLaw request endPoints ↔
      ∀ before endPoint, FirstFit request endPoints before endPoint →
        Clean request before endPoint := by
  have hfound : (parseBindings request endPoints).1 = true ↔
      ∃ endPoint ∈ endPoints, FitsEndPoint request endPoint :=
    matchEndPoints_fst_iff endPoints ∅
  have hlookup {before : List String} {endPoint : String}
      (h : FirstFit request endPoints before endPoint) (name : String) :
      (parseBindings request endPoints).2.lookup name =
        (lastValue (bound request endPoint) name).or
          (lastValue (before.flatMap (bound request)) name) := by
    rw [parseBindings, matchEndPoints_snd h, Cache.lookup_assign, Cache.lookup_assign,
      AList.lookup_empty, Option.or_none]
  constructor
  · intro hlaw before endPoint h
    have hmem := hlaw.bindings before endPoint h
    refine ⟨fun name segment segment' hs hs' ↦ ?_, fun name segment hs ↦ ?_,
      fun name segment hs hnot ↦ ?_⟩
    · rw [← hmem] at hs hs'
      exact Option.some.inj (hs.symm.trans hs')
    · obtain ⟨segment', hlast⟩ := exists_lastValue hs
      rcases hown : lastValue (bound request endPoint) name with _ | w
      · refine ⟨segment', (hmem name segment').mp ?_⟩
        rw [hlookup h, hown, hlast]
        rfl
      · exact ⟨w, bound_subset endPoint (mem_of_lastValue hown)⟩
    · have hvalue := (hmem name segment).mpr hs
      rw [hlookup h] at hvalue
      rcases hown : lastValue (bound request endPoint) name with _ | w
      · rw [hown] at hvalue
        exact hvalue
      · rw [hown] at hvalue
        cases hvalue
        exact absurd (mem_of_lastValue hown) hnot
  · intro hclean
    refine ⟨hfound, fun before endPoint h name segment ↦ ?_⟩
    have hc := hclean before endPoint h
    rw [hlookup h]
    rcases hown : lastValue (bound request endPoint) name with _ | w
    · rw [Option.none_or]
      have hnot (v : String) : (name, v) ∉ bound request endPoint := by
        intro hv
        obtain ⟨v', hv'⟩ := exists_lastValue hv
        rw [hown] at hv'
        cases hv'
      constructor
      · intro hlast
        obtain ⟨segment', hs'⟩ := hc.leftOver name segment (mem_of_lastValue hlast)
        rw [hc.literal name segment' hs' (hnot segment')] at hlast
        exact Option.some.inj hlast ▸ hs'
      · exact fun hs ↦ hc.literal name segment hs (hnot segment)
    · have hw := bound_subset endPoint (mem_of_lastValue hown)
      rw [Option.some_or, Option.some.injEq]
      exact ⟨fun heq ↦ heq ▸ hw, fun hs ↦ hc.unambiguous name w segment hw hs⟩

/-- The path of a user whose identifier is written like the parameter binds nothing, and an end
point that does not fit leaves a binding behind. -/
theorem literal_and_leftOver_bindings :
    ((parseBindings "/api/v1/user/{id}" ["/api/v1/user/{id}"]).2.lookup "id" = none ∧
      ¬ RoutingLaw "/api/v1/user/{id}" ["/api/v1/user/{id}"]) ∧
    ((parseBindings "/a/b/c" ["/{x}/b/d", "/a/b/{y}"]).2.lookup "x" = some "a" ∧
      ¬ RoutingLaw "/a/b/c" ["/{x}/b/d", "/a/b/{y}"]) := by
  have hliteral :
      (parseBindings "/api/v1/user/{id}" ["/api/v1/user/{id}"]).2.lookup "id" = none := by decide
  have hleft : (parseBindings "/a/b/c" ["/{x}/b/d", "/a/b/{y}"]).2.lookup "x" = some "a" := by
    decide
  refine ⟨⟨hliteral, fun hlaw ↦ ?_⟩, hleft, fun hlaw ↦ ?_⟩
  · have hfirst : FirstFit "/api/v1/user/{id}" ["/api/v1/user/{id}"] [] "/api/v1/user/{id}" :=
      ⟨⟨[], rfl⟩, nofun, by decide⟩
    have hbound := (hlaw.bindings _ _ hfirst "id" "{id}").mpr (by decide)
    rw [hliteral] at hbound
    cases hbound
  · have hfirst : FirstFit "/a/b/c" ["/{x}/b/d", "/a/b/{y}"] ["/{x}/b/d"] "/a/b/{y}" :=
      ⟨⟨[], rfl⟩, by decide, by decide⟩
    have hmem := (hlaw.bindings _ _ hfirst "x" "a").mp hleft
    exact absurd hmem (by decide)

/-! ## The routers -/

/-- `RESTAPI_Router` and `RESTAPI_Router_I`: the handler that takes the path, if any does. -/
def RESTAPI_Router {α : Type} (request : String) :
    List (List String × α) → BindingMap → Option α × BindingMap
  | [], bindings => (none, bindings)
  | (endPoints, handler) :: handlers, _ =>
    match parseBindings request endPoints with
    | (true, bindings) => (some handler, bindings)
    | (false, bindings) => RESTAPI_Router request handlers bindings

/-- The first handler with an end point that fits takes the path, and what other handlers have
bound is forgotten. -/
theorem RESTAPI_Router_eq {α : Type} {request : String} {before after : List (List String × α)}
    {endPoints : List String} {handler : α}
    (hbefore : ∀ h ∈ before, ∀ endPoint ∈ h.1, ¬ FitsEndPoint request endPoint)
    (hfits : ∃ endPoint ∈ endPoints, FitsEndPoint request endPoint) (bindings : BindingMap) :
    RESTAPI_Router request (before ++ (endPoints, handler) :: after) bindings =
      (some handler, (parseBindings request endPoints).2) := by
  induction before generalizing bindings with
  | nil =>
    have hfst := (matchEndPoints_fst_iff endPoints ∅).mpr hfits
    rw [List.nil_append, RESTAPI_Router]
    rcases hrun : parseBindings request endPoints with ⟨found, bindings'⟩
    rw [← parseBindings, hrun] at hfst
    cases hfst
    rfl
  | cons h before ih =>
    have hnot : ¬ ∃ endPoint ∈ h.1, FitsEndPoint request endPoint := by
      rintro ⟨endPoint, hmem, hfit⟩
      exact hbefore h List.mem_cons_self endPoint hmem hfit
    have hfst := (matchEndPoints_fst_iff h.1 ∅).not.mpr hnot
    rw [List.cons_append, RESTAPI_Router]
    rcases hrun : parseBindings request h.1 with ⟨found, bindings'⟩
    rw [← parseBindings, hrun, Bool.not_eq_true] at hfst
    cases hfst
    exact ih (fun h' hh' ↦ hbefore h' (List.mem_cons_of_mem h hh')) bindings'

end RestApi

end OwSec

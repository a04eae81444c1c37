import OwSec.Kit.Pages
import OwSec.RestApi.SubUsers

/-!
# Counting and listing subscribers

The subscribers handler counts, or lists a page.  The list that a client collects page after page,
for the same search, is as long as the count says where there is a valid operator.  Without one the
handler counts the users and lists the subscribers.
-/

namespace OwSec

open SecurityObjects Kit

variable (svc : Service)

namespace Population

/-- The rows that a condition selects; an error of the engine selects nothing. -/
def selected (p : Population) (whereClause : String) : List UserInfo :=
  if whereClause.isEmpty then p.users.rows
  else
    match Sql.condition svc.dialect userColumns whereClause.toList with
    | some condition => p.users.rows.filter condition
    | none => []

theorem count_eq (p : Population) (whereClause : String) :
    p.count svc whereClause = (p.selected svc whereClause).length := by
  rw [count, selected]
  by_cases hclause : whereClause.isEmpty = true
  · rw [if_pos hclause, if_pos hclause]
  · rw [if_neg hclause, if_neg hclause]
    cases Sql.condition svc.dialect userColumns whereClause.toList <;> rfl

theorem length_selected_le (p : Population) (whereClause : String) :
    (p.selected svc whereClause).length ≤ p.users.rows.length := by
  unfold selected
  split
  · exact le_rfl
  · split
    · exact List.length_filter_le _ _
    · exact Nat.zero_le _

/-- A page of the rows; the engine refuses pages that lie behind every table. -/
theorem getUsers_page (p : Population) {size : ℕ} (hsize : size < 2 ^ 63)
    (hrows : p.users.rows.length < 2 ^ 63) (whereClause : String) (k : ℕ) :
    (p.getUsers svc (k * size) size whereClause).2 = page (p.selected svc whereClause) size k := by
  have hempty : whereClause.toList.isEmpty = whereClause.isEmpty := by
    rw [Bool.eq_iff_iff]
    simp
  by_cases hoffset : k * size < 2 ^ 63
  · simp only [getUsers, Sql.select, hoffset, hsize, and_self, if_true, hempty, selected, page]
    by_cases hclause : whereClause.isEmpty = true
    · simp [hclause]
    · simp only [hclause, Bool.false_eq_true, if_false]
      rcases Sql.condition svc.dialect userColumns whereClause.toList with _ | condition
      · simp
      · rfl
  · have hbehind : page (p.selected svc whereClause) size k = [] := by
      have hlength := p.length_selected_le svc whereClause
      rw [page, List.drop_of_length_le (by omega), List.take_nil]
    simp only [getUsers, Sql.select, hoffset, false_and, if_false, hbehind]

end Population

namespace RestApi

namespace SubUsersHandler

/-- The request for the count. -/
def counting (c : Context) : Context :=
  { c with queryBlock := { c.queryBlock with countOnly := true } }

/-- The request for a page of the list. -/
def paged (size : ℕ) (c : Context) (k : ℕ) : Context :=
  { c with
    queryBlock :=
      { c.queryBlock with offset := k * size, limit := size, select := [], countOnly := false } }

/-- What the handler answers. -/
def reply (s : Storage) (c : Context) : Response := (answer (doGet svc c) s).1

/-- The records of a page, by their identifiers. -/
def listed : Response → List String
  | .users us => us.map UserInfo.id
  | .userIds ids => ids
  | _ => []

/-- The count is the length of the list that is collected in pages of a size. -/
def CountLaw (s : Storage) (c : Context) (size : ℕ) : Prop :=
  ∃ n ids, reply svc s (counting c) = .count n ∧
    Collects (fun k ↦ listed (reply svc s (paged size c k))) ids ∧ n = ids.length

/-- The parameter `operatorId` is a valid identifier. -/
def hasOperator (r : Request) : Bool :=
  !(r.getParameter "operatorId").isEmpty && validUUID (r.getParameter "operatorId")

section CountLaw

variable {c : Context} {size : ℕ}

theorem whereClause_of_not_operator (h : hasOperator c.request = false) :
    whereClause c.request = none := by
  unfold whereClause
  exact if_neg (by rw [← hasOperator, h]; exact Bool.false_ne_true)

theorem whereClause_of_operator (h : hasOperator c.request = true) :
    ∃ clause, whereClause c.request = some clause := by
  unfold whereClause
  exact ⟨_, if_pos h⟩

theorem reply_counting (s : Storage) (c : Context) :
    reply svc s (counting c) =
      .count (match whereClause c.request with
        | some clause => s.sub.count svc clause
        | none => s.user.count svc "") :=
  rfl

theorem reply_paged (s : Storage) (c : Context) (size k : ℕ) :
    reply svc s (paged size c k) =
      let users := (s.sub.getUsers svc (k * size) size ((whereClause c.request).getD "")).2.map
        sanitize
      if c.request.getBoolParameter "idOnly" then .userIds (users.map UserInfo.id)
      else .users users :=
  rfl

theorem listed_paged (s : Storage) (c : Context) (size k : ℕ) :
    listed (reply svc s (paged size c k)) =
      (s.sub.getUsers svc (k * size) size ((whereClause c.request).getD "")).2.map UserInfo.id := by
  have hsanitize : UserInfo.id ∘ sanitize = UserInfo.id := rfl
  rw [reply_paged]
  dsimp only
  split
  · rw [listed, List.map_map, hsanitize]
  · rw [listed, List.map_map, hsanitize]

/-- The pages of the list are collected as the subscribers that the condition selects. -/
theorem collects_listed (s : Storage) (c : Context) (hsize : 0 < size) (hsize' : size < 2 ^ 63)
    (hrows : s.sub.users.rows.length < 2 ^ 63) :
    Collects (fun k ↦ listed (reply svc s (paged size c k)))
      ((s.sub.selected svc ((whereClause c.request).getD "")).map UserInfo.id) := by
  have hpages : (fun k ↦ listed (reply svc s (paged size c k))) =
      page ((s.sub.selected svc ((whereClause c.request).getD "")).map UserInfo.id) size := by
    funext k
    rw [listed_paged, Population.getUsers_page svc s.sub hsize' hrows, page, page, List.map_take,
      List.map_drop]
  rw [hpages]
  exact collects_page _ hsize

end CountLaw

/-- One user and no subscriber. -/
def oneUser : Storage where
  user := { users := ⟨[{ id := "1", email := "ann@example.com" }], List.nodup_singleton _⟩ }

/-- Without parameters there is no number that cannot be read. -/
theorem isSome_initQueryBlock_empty : (initQueryBlock {}).isSome := rfl

/-- A request without an operator. -/
def plainRequest : Context where
  request := {}
  internal := false
  moment := .sample 100 "a"
  queryBlock := (initQueryBlock {}).get isSome_initQueryBlock_empty

/-- One user, two subscribers of an operator and one of another. -/
def twoOperators : Storage where
  user := oneUser.user
  sub :=
    { users :=
        ⟨[{ id := "2", name := "ann", owner := "a-1" }, { id := "3", name := "bob", owner := "a-2" },
            { id := "4", name := "ann", owner := "a-1" }], by decide⟩ }

/-- A request for the subscribers of a name that an operator has. -/
def operatorRequest : Context :=
  { plainRequest with request := { parameters := [("operatorId", "a-1"), ("nameSearch", "ann")] } }

end SubUsersHandler

end RestApi

end OwSec

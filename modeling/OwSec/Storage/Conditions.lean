import OwSec.Storage.Archiver
import OwSec.Storage.Statements

/-!
# The conditions of the stores

The conditions that the stores put into their statements, and what they select: they are made from
numbers and from values between quotes.

`Archiver::onTimer` issues four of these statements.  On any database the rows of all the tables are
afterwards what they are in the stores.
-/

namespace OwSec

open SecurityObjects Kit Sql ORM

/-! ## The conditions -/

/-- `CutOff`: the difference wraps. -/
def cutOff (now : ℕ) : ℕ := u64 (now + 2 ^ 64 - 30 * 24 * 60 * 60)

/-- The conditions of the stores. -/
inductive StoreCondition : RecordClass → Type
  /-- `BaseTokenDB::CleanExpiredTokens`. -/
  | expiredTokens (now : ℕ) : StoreCondition .token
  /-- `BaseTokenDB::RevokeAllTokens`. -/
  | tokensOf (userId : String) : StoreCondition .token
  /-- `BaseUserDB::DeleteUsers`. -/
  | usersOf (owner : String) : StoreCondition .user
  /-- `ActionLinkDB::GetActions`. -/
  | unsentActions : StoreCondition .actionLink
  /-- `ActionLinkDB::CleanOldActionLinks`. -/
  | oldActionLinks (now : ℕ) : StoreCondition .actionLink
  /-- `ApiKeyDB::RemoveAllApiKeys`, and the handler of API keys. -/
  | apiKeysOf (userUuid : String) : StoreCondition .apiKey
  /-- `ApiKeyDB::RemoveExpiredAPIKeys`. -/
  | expiredApiKeys (now : ℕ) : StoreCondition .apiKey

namespace StoreCondition

/-- The text of a condition. -/
def text : {s : RecordClass} → StoreCondition s → String
  | _, .expiredTokens now => " (created + expires) <= " ++ toString now
  | _, .tokensOf userId => " userName='" ++ userId ++ "' "
  | _, .usersOf owner => " owner='" ++ owner ++ "' "
  | _, .unsentActions => " sent=0 "
  | _, .oldActionLinks now => " Created <= " ++ toString (cutOff now) ++ " "
  | _, .apiKeysOf userUuid => " userUuid='" ++ userUuid ++ "' "
  | _, .expiredApiKeys now => " expiresOn <= " ++ toString now

/-- The value that is put between quotes. -/
def value? : {s : RecordClass} → StoreCondition s → Option String
  | _, .tokensOf v | _, .usersOf v | _, .apiKeysOf v => some v
  | _, .expiredTokens _ | _, .unsentActions | _, .oldActionLinks _ | _, .expiredApiKeys _ => none

/-- The records that are meant. -/
def selects : {s : RecordClass} → StoreCondition s → s.Record → Bool
  | _, .expiredTokens now => fun t : SecurityObjects.Token ↦ t.created + t.expires ≤ now
  | _, .tokensOf userId => fun t : SecurityObjects.Token ↦ t.userName == userId
  | _, .usersOf owner => fun u : UserInfo ↦ u.owner == owner
  | _, .unsentActions => fun a : ActionLink ↦ a.sent == 0
  | _, .oldActionLinks now => fun a : ActionLink ↦ a.created ≤ cutOff now
  | _, .apiKeysOf userUuid => fun k : ApiKeyEntry ↦ k.userUuid == userUuid
  | _, .expiredApiKeys now => fun k : ApiKeyEntry ↦ k.expiresOn ≤ now

/-- The numbers of a record can be added. -/
def Fits : {s : RecordClass} → StoreCondition s → s.Record → Prop
  | _, .expiredTokens _ => fun t : SecurityObjects.Token ↦ t.created + t.expires < 2 ^ 63
  | _, .tokensOf _ | _, .usersOf _ | _, .unsentActions | _, .oldActionLinks _ | _, .apiKeysOf _
  | _, .expiredApiKeys _ => fun _ ↦ True

/-- The expression that is meant. -/
def expression : {s : RecordClass} → StoreCondition s → Expression
  | _, .expiredTokens now =>
    .binary (.compare .le) (.binary .plus (.column "created".toList) (.column "expires".toList))
      (.value (.int now))
  | _, .tokensOf userId =>
    .binary (.compare .eq) (.column "username".toList) (.value (.text userId))
  | _, .usersOf owner => .binary (.compare .eq) (.column "owner".toList) (.value (.text owner))
  | _, .unsentActions => .binary (.compare .eq) (.column "sent".toList) (.value (.int 0))
  | _, .oldActionLinks now =>
    .binary (.compare .le) (.column "created".toList) (.value (.int (cutOff now)))
  | _, .apiKeysOf userUuid =>
    .binary (.compare .eq) (.column "useruuid".toList) (.value (.text userUuid))
  | _, .expiredApiKeys now =>
    .binary (.compare .le) (.column "expireson".toList) (.value (.int now))

variable {s : RecordClass} {type : DBType}

/-- The text means the expression, on every database that keeps the value. -/
theorem isExpression (cond : StoreCondition s)
    (hvalue : ∀ v ∈ cond.value?, quote ∉ v.toList ∧ type.quoting.Keeps v.toList) :
    IsExpression type cond.text cond.expression := by
  cases cond with
  | expiredTokens now =>
    have hfront : Spells type " (created + expires) <=".toList
        ([opening, keyword "created", .symbol '+', keyword "expires", closing] ++
          Comparator.tokens .le) :=
      ⟨.of_any (by cases type <;> decide) (by cases type <;> decide), by decide⟩
    have hsum : Derives 4 [.token (keyword "created"), .token (.symbol '+'),
        .token (keyword "expires")] (.binary .plus (.column "created".toList)
          (.column "expires".toList)) :=
      (Derives.binary (o := .plus) (.word (IsIdentifier.wordExpression_eq (by decide)))
        (derives_column (w := "expires".toList) (by decide))).mono (by decide)
    exact isExpression_number (by decide) .le hfront (Derives.enclosed hsum).ascend now
  | tokensOf userId =>
    obtain ⟨hv, hkeeps⟩ := hvalue userId rfl
    have hfront : Spells type " userName=".toList [keyword "username", .symbol '='] :=
      ⟨.of_any (by cases type <;> decide) (by cases type <;> decide), by decide⟩
    exact isExpression_value (by decide) hfront (by decide) (by decide) (by decide) hv hkeeps
  | usersOf owner =>
    obtain ⟨hv, hkeeps⟩ := hvalue owner rfl
    have hfront : Spells type " owner=".toList [keyword "owner", .symbol '='] :=
      ⟨.of_any (by cases type <;> decide) (by cases type <;> decide), by decide⟩
    exact isExpression_value (by decide) hfront (by decide) (by decide) (by decide) hv hkeeps
  | unsentActions =>
    have hspells : Spells type " sent=0 ".toList [keyword "sent", .symbol '=', .word ['0']] :=
      ⟨.of_any (by cases type <;> decide) (by cases type <;> decide), by decide⟩
    have hderives := derives_compare .eq (derives_column (w := "sent".toList) (by decide))
      (derives_number 0)
    exact ⟨_, hspells, hderives.mono (by decide)⟩
  | oldActionLinks now =>
    have hfront : Spells type " Created <=".toList ([keyword "created"] ++ Comparator.tokens .le) :=
      ⟨.of_any (by cases type <;> decide) (by cases type <;> decide), by decide⟩
    exact (isExpression_number (by decide) .le hfront (derives_column (by decide)) _).blank
  | apiKeysOf userUuid =>
    obtain ⟨hv, hkeeps⟩ := hvalue userUuid rfl
    have hfront : Spells type " userUuid=".toList [keyword "useruuid", .symbol '='] :=
      ⟨.of_any (by cases type <;> decide) (by cases type <;> decide), by decide⟩
    exact isExpression_value (by decide) hfront (by decide) (by decide) (by decide) hv hkeeps
  | expiredApiKeys now =>
    have hfront : Spells type " expiresOn <=".toList
        ([keyword "expireson"] ++ Comparator.tokens .le) :=
      ⟨.of_any (by cases type <;> decide) (by cases type <;> decide), by decide⟩
    exact isExpression_number (by decide) .le hfront (derives_column (by decide)) now

/-- Numbers are compared as numbers. -/
def Orders (E : Engine) : Prop :=
  ∀ m n : ℤ, E.compare .le (.int m) (.int n) = some (decide (m ≤ n))

section Meaning

variable {E : Engine} {lib : JsonLibrary} {condense : Json → String} {hlib : lib.Converts}
  {hempty : lib.parse "[]" = some (.arr [])}

/-- A comparison of a column with a text. -/
theorem satisfies_text (hexact : E.Exact) {fields : List Field} {ρ : Type}
    {c : RecordTuple fields ρ} {w : List Char} {r : ρ} {a : String}
    (hcolumn : c.column w r = some (.text a)) (v : String) :
    c.satisfies E (some (.binary (.compare .eq) (.column w) (.value (.text v)))) r
      = some (a == v) := by
  have hholds : c.satisfies E (some (.binary (.compare .eq) (.column w) (.value (.text v)))) r
      = E.compare .eq (.text a) (.text v) := Expression.holds_compare hcolumn rfl
  have heq : E.compare .eq (.text a) (.text v) = _ := hexact.eq rfl
  rw [hholds, heq, beq_eq_decide]
  simp only [Value.text.injEq]

/-- A column is not greater than a number. -/
theorem satisfies_le (horders : Orders E) {fields : List Field} {ρ : Type}
    {c : RecordTuple fields ρ} {l : Expression} {r : ρ} {m : ℕ}
    (hl : l.eval E [] (fun w ↦ c.column w r) = some (.int m)) (n : ℕ) :
    c.satisfies E (some (.binary (.compare .le) l (.value (.int n)))) r = some (decide (m ≤ n)) := by
  have hholds : c.satisfies E (some (.binary (.compare .le) l (.value (.int n)))) r
      = E.compare .le (.int m) (.int n) := Expression.holds_compare hl rfl
  rw [hholds, horders]
  simp

/-- When a token runs out. -/
theorem eval_sum {t : SecurityObjects.Token} (ht : t.created + t.expires < 2 ^ 63) :
    (Expression.binary .plus (.column "created".toList) (.column "expires".toList)).eval E []
        (fun w ↦ (RecordClass.token.tuple lib condense hlib hempty).column w t)
      = some (.int (t.created + t.expires : ℕ)) := by
  have hcreated : (Expression.column "created".toList).eval E []
      (fun w ↦ (RecordClass.token.tuple lib condense hlib hempty).column w t)
        = some (.int t.created) := rfl
  have hexpires : (Expression.column "expires".toList).eval E []
      (fun w ↦ (RecordClass.token.tuple lib condense hlib hempty).column w t)
        = some (.int t.expires) := rfl
  rw [Expression.eval_binary .plus hcreated hexpires, Operator.eval_plus E ht]

/-- The expression holds of the records that are meant. -/
theorem satisfies_eq (hexact : E.Exact) (horders : Orders E) (cond : StoreCondition s)
    {r : s.Record} (hr : cond.Fits r) :
    (s.tuple lib condense hlib hempty).satisfies E (some cond.expression) r
      = some (cond.selects r) := by
  cases cond with
  | expiredTokens now =>
    exact satisfies_le horders (eval_sum hr) now
  | tokensOf userId => exact satisfies_text hexact rfl userId
  | usersOf owner => exact satisfies_text hexact rfl owner
  | unsentActions =>
    change ActionLink at r
    have hholds : (RecordClass.actionLink.tuple lib condense hlib hempty).satisfies E
        (some (.binary (.compare .eq) (.column "sent".toList) (.value (.int 0)))) r
          = E.compare .eq (.int r.sent) (.int 0) := Expression.holds_compare rfl rfl
    have heq : E.compare .eq (.int r.sent) (.int 0) = _ := hexact.eq rfl
    rw [heq] at hholds
    refine hholds.trans (congrArg some ?_)
    simp only [selects, beq_eq_decide, Value.int.injEq, Int.natCast_eq_zero]
  | oldActionLinks now => exact satisfies_le horders rfl _
  | apiKeysOf userUuid => exact satisfies_text hexact rfl userUuid
  | expiredApiKeys now => exact satisfies_le horders rfl now

/-- The text selects the records that are meant. -/
theorem selects_text (hexact : E.Exact) (horders : Orders E) (cond : StoreCondition s)
    (hvalue : ∀ v ∈ cond.value?, quote ∉ v.toList ∧ type.quoting.Keeps v.toList)
    {rs : List s.Record} (hrs : ∀ r ∈ rs, cond.Fits r) :
    Selects E (s.tuple lib condense hlib hempty) type cond.text rs cond.selects :=
  ⟨_, .expression (cond.isExpression hvalue), fun r hr ↦
    satisfies_eq hexact horders cond (hrs r hr)⟩

end Meaning

theorem text_ne_empty {cond : StoreCondition s}
    (hvalue : ∀ v ∈ cond.value?, quote ∉ v.toList ∧ type.quoting.Keeps v.toList) :
    cond.text ≠ "" := by
  have hempty := (cond.isExpression hvalue).isEmpty_eq
  rintro heq
  rw [heq] at hempty
  cases hempty

end StoreCondition

/-- On every database, each condition of the stores deletes, counts and gets the records that the
stores mean by it, as long as the value between its quotes has none itself and is kept. -/
theorem conditions_select {E : Engine} (hexact : E.Exact) (horders : StoreCondition.Orders E)
    {lib : JsonLibrary} {condense : Json → String} (hlib : lib.Converts)
    (hempty : lib.parse "[]" = some (.arr [])) (type : DBType) (t : StoreTable)
    (cond : StoreCondition t.recordClass)
    (hvalue : ∀ v ∈ cond.value?, quote ∉ v.toList ∧ type.quoting.Keeps v.toList) :
    ∃ db, t.new type = some db ∧
      ∀ rows : Table String t.recordClass.Record t.recordClass.key,
        (∀ r ∈ rows.rows, t.recordClass.Kept lib condense r ∧ cond.Fits r) →
        db.deleteRecords E cond.text
            (stored t.tableName (t.recordClass.tuple lib condense hlib hempty) rows.rows)
          = (true, stored t.tableName (t.recordClass.tuple lib condense hlib hempty)
              (rows.deleteWhere cond.selects).rows) ∧
        db.count E cond.text
            (stored t.tableName (t.recordClass.tuple lib condense hlib hempty) rows.rows)
          = (rows.rows.filter cond.selects).length ∧
        ∀ offset < 2 ^ 63, ∀ howMany < 2 ^ 63,
          db.getRecords E (t.recordClass.tuple lib condense hlib hempty) offset howMany cond.text ""
              (stored t.tableName (t.recordClass.tuple lib condense hlib hempty) rows.rows)
            = (!(((rows.rows.filter cond.selects).drop offset).take howMany).isEmpty,
                ((rows.rows.filter cond.selects).drop offset).take howMany) := by
  obtain ⟨db, hdb⟩ := t.exists_new type
  refine ⟨db, hdb, fun rows hrows ↦ ?_⟩
  have hs : Selects E (t.recordClass.tuple lib condense hlib hempty) type cond.text rows.rows
      cond.selects := cond.selects_text hexact horders hvalue fun r hr ↦ (hrows r hr).2
  refine ⟨t.tabular.deleteRecords_eq hdb (StoreCondition.text_ne_empty hvalue) hs,
    t.tabular.count_eq hdb hs, fun offset hoffset howMany hmany ↦ ?_⟩
  have hkept : ∀ r ∈ rows.rows, (t.recordClass.tuple lib condense hlib hempty).Kept r :=
    fun r hr ↦ (hrows r hr).1
  rw [t.tabular.getRecords_unordered hdb hkept hs, if_pos ⟨hoffset, hmany⟩]

theorem orders_sampleStoreEngine : StoreCondition.Orders sampleStoreEngine := by
  intro m n
  have hle : [m] ≤ [n] ↔ m ≤ n := by
    rw [← not_lt, ← not_lt, List.cons_lt_cons_iff]
    simp
  exact congrArg some (decide_eq_decide.mpr hle)

/-- A token that has run out, and one that has not. -/
def sampleTokens : Table String SecurityObjects.Token SecurityObjects.Token.token where
  rows := [{ token := "t1", created := 100, expires := 50 },
    { token := "t2", created := 100, expires := 900 }]
  nodup := by decide

/-- Tokens that have run out. -/
theorem conditions_select_tokens :
    ∃ db, (StoreTable.tokens false).new .mysql = some db ∧
      db.deleteRecords sampleStoreEngine " (created + expires) <= 500"
          (stored "Tokens" (sampleTuple .token) sampleTokens.rows)
        = (true, stored "Tokens" (sampleTuple .token)
            [{ token := "t2", created := 100, expires := 900 }]) := by
  have hexact := (ordered_sampleEngine Service.sample.dialect).toExact
  obtain ⟨db, hdb, hrows⟩ := @conditions_select sampleStoreEngine hexact orders_sampleStoreEngine _
    StoredRecord.sampleCondense StoredRecord.converts_sampleLibrary rfl .mysql (.tokens false)
    (.expiredTokens 500) (by simp [StoreCondition.value?])
  have hkept : ∀ r ∈ sampleTokens.rows,
      RecordClass.Kept StoredRecord.sampleLibrary StoredRecord.sampleCondense .token r ∧
        (StoreCondition.expiredTokens 500).Fits r := by
    have hfits : ∀ r ∈ sampleTokens.rows, r.created + r.expires < 2 ^ 63 := by decide
    exact fun r hr ↦ ⟨trivial, hfits r hr⟩
  exact ⟨db, hdb, (hrows sampleTokens hkept).1⟩

/-! ## The database -/

namespace Storage

/-- The rows of a table. -/
def table (s : Storage) : (t : StoreTable) → Table String t.recordClass.Record t.recordClass.key
  | .users isSub => (s.population isSub).users
  | .tokens isSub => (s.population isSub).tokens.rows
  | .preferences false => s.preferences
  | .preferences true => s.subPreferences
  | .actionLinks => s.actionLinks
  | .avatars false => s.avatars
  | .avatars true => s.subAvatars
  | .logins isSub => (s.population isSub).logins
  | .apiKeys => s.apiKeys

/-- The rows of all tables. -/
def database (lib : JsonLibrary) (condense : Json → String) (hlib : lib.Converts)
    (hempty : lib.parse "[]" = some (.arr [])) (s : Storage) (t : StoreTable) : Extent :=
  stored t.tableName (t.recordClass.tuple lib condense hlib hempty) (s.table t).rows

/-- Rows are deleted in one table. -/
structure Deletes (t : StoreTable) (cond : StoreCondition t.recordClass) (s s' : Storage) :
    Prop where
  table_eq : s'.table t = (s.table t).deleteWhere cond.selects
  table_ne : ∀ t' ≠ t, s'.table t' = s.table t'

/-- Rows that are left were there before. -/
theorem Deletes.mem_of_mem {t : StoreTable} {cond : StoreCondition t.recordClass} {s s' : Storage}
    (h : Deletes t cond s s') (t' : StoreTable) {r : t'.recordClass.Record}
    (hr : r ∈ (s'.table t').rows) : r ∈ (s.table t').rows := by
  by_cases ht : t' = t
  · subst ht
    rw [h.table_eq] at hr
    exact List.mem_of_mem_filter hr
  · rwa [h.table_ne t' ht] at hr

theorem deletes_cleanExpiredTokens (now : ℕ) (s : Storage) (isSub : Bool) :
    Deletes (.tokens isSub) (.expiredTokens now) s (s.cleanExpiredTokens now isSub) where
  table_eq := by cases isSub <;> rfl
  table_ne t' ht' := by
    rcases t' with (_ | _) | (_ | _) | (_ | _) | _ | (_ | _) | (_ | _) | _ <;> cases isSub <;>
      first | rfl | exact absurd rfl ht'

theorem deletes_cleanOldActionLinks (now : ℕ) (s : Storage) :
    Deletes .actionLinks (.oldActionLinks now) s (s.cleanOldActionLinks now) where
  table_eq := rfl
  table_ne t' ht' := by
    rcases t' with (_ | _) | (_ | _) | (_ | _) | _ | (_ | _) | (_ | _) | _ <;>
      first | rfl | exact absurd rfl ht'

end Storage

/-- Statements of `DeleteRecords`, one after the other: whether all of them have succeeded, and the
rows behind them. -/
def issue (E : Engine) (dbs : StoreTable → DB) :
    List (StoreTable × String) → (StoreTable → Extent) → Bool × (StoreTable → Extent)
  | [], D => (true, D)
  | (t, whereClause) :: rest, D =>
    (issue E dbs rest
      (Function.update D t ((dbs t).deleteRecords E whereClause (D t)).2)).map
        (((dbs t).deleteRecords E whereClause (D t)).1 && ·) id

/-- The statements of `Archiver::onTimer`. -/
def tickStatements (now : ℕ) : List (StoreTable × String) :=
  [(.tokens true, (StoreCondition.expiredTokens now).text),
    (.tokens false, (StoreCondition.expiredTokens now).text),
    (.actionLinks, (StoreCondition.oldActionLinks now).text),
    (.actionLinks, (StoreCondition.oldActionLinks now).text)]

section Tick

variable {E : Engine} {type : DBType} {dbs : StoreTable → DB} {lib : JsonLibrary}
  {condense : Json → String} {hlib : lib.Converts} {hempty : lib.parse "[]" = some (.arr [])}

/-- A statement whose condition holds no value does in the database what the deletion does in the
stores. -/
theorem issue_cons (hexact : E.Exact) (horders : StoreCondition.Orders E)
    (hdbs : ∀ t : StoreTable, t.new type = some (dbs t)) {t : StoreTable}
    {cond : StoreCondition t.recordClass} (hvalue : cond.value? = none) {s s' : Storage}
    (hdeletes : s.Deletes t cond s') (hfits : ∀ r ∈ (s.table t).rows, cond.Fits r)
    (rest : List (StoreTable × String)) :
    issue E dbs ((t, cond.text) :: rest) (s.database lib condense hlib hempty)
      = issue E dbs rest (s'.database lib condense hlib hempty) := by
  have hnone : ∀ v ∈ cond.value?, quote ∉ v.toList ∧ type.quoting.Keeps v.toList := by
    rw [hvalue]
    exact fun v hv ↦ absurd hv (Option.not_mem_none v)
  have hs : Selects E (t.recordClass.tuple lib condense hlib hempty) type cond.text
      (s.table t).rows cond.selects := cond.selects_text hexact horders hnone hfits
  have hdelete : (dbs t).deleteRecords E cond.text (s.database lib condense hlib hempty t)
      = (true, s'.database lib condense hlib hempty t) := by
    rw [Storage.database, Storage.database, hdeletes.table_eq]
    exact t.tabular.deleteRecords_eq (hdbs t) (StoreCondition.text_ne_empty hnone) hs
  have hupdate : Function.update (s.database lib condense hlib hempty) t
      (s'.database lib condense hlib hempty t) = s'.database lib condense hlib hempty := by
    funext t'
    by_cases ht : t' = t
    · rw [ht, Function.update_self]
    · rw [Function.update_of_ne ht, Storage.database, Storage.database, hdeletes.table_ne t' ht]
  rw [issue, hdelete, hupdate]
  rfl

/-- On every database, a tick of the archiver succeeds and leaves in all tables what it leaves in the
stores, as long as no sum of a token is too great. -/
theorem tick_database (hexact : E.Exact) (horders : StoreCondition.Orders E)
    (hdbs : ∀ t : StoreTable, t.new type = some (dbs t)) (now : ℕ) {s : Storage}
    (hsums : ∀ isSub, ∀ r ∈ (s.population isSub).tokens.rows.rows, r.created + r.expires < 2 ^ 63) :
    issue E dbs (tickStatements now) (s.database lib condense hlib hempty)
      = (true, (s.onTimer now).database lib condense hlib hempty) := by
  have hsub := s.deletes_cleanExpiredTokens now true
  have huser := (s.cleanExpiredTokens now true).deletes_cleanExpiredTokens now false
  have hlinks := ((s.cleanExpiredTokens now true).cleanExpiredTokens now
    false).deletes_cleanOldActionLinks now
  have hagain := (((s.cleanExpiredTokens now true).cleanExpiredTokens now
    false).cleanOldActionLinks now).deletes_cleanOldActionLinks now
  have hfits : ∀ r ∈ ((s.cleanExpiredTokens now true).table (.tokens false)).rows,
      (StoreCondition.expiredTokens now).Fits r := fun r hr ↦
    hsums false r (hsub.mem_of_mem (.tokens false) hr)
  calc issue E dbs (tickStatements now) (s.database lib condense hlib hempty)
    _ = issue E dbs ((tickStatements now).drop 1) _ :=
        issue_cons hexact horders hdbs rfl hsub (hsums true) _
    _ = issue E dbs ((tickStatements now).drop 2) _ :=
        issue_cons hexact horders hdbs rfl huser hfits _
    _ = issue E dbs ((tickStatements now).drop 3) _ :=
        issue_cons hexact horders hdbs rfl hlinks (fun _ _ ↦ trivial) _
    _ = (true, (s.onTimer now).database lib condense hlib hempty) :=
        issue_cons hexact horders hdbs rfl hagain (fun _ _ ↦ trivial) _

end Tick

/-- A tick behind the time at which a token runs out. -/
theorem tick_database_sample :
    ∃ dbs : StoreTable → DB, (∀ t : StoreTable, t.new .pgsql = some (dbs t)) ∧
      issue sampleStoreEngine dbs (tickStatements 1700000000)
          ((sampleExpiring 1600000000).database StoredRecord.sampleLibrary
            StoredRecord.sampleCondense StoredRecord.converts_sampleLibrary rfl)
        = (true, ((sampleExpiring 1600000000).onTimer 1700000000).database
            StoredRecord.sampleLibrary StoredRecord.sampleCondense
            StoredRecord.converts_sampleLibrary rfl) := by
  choose dbs hdbs using StoreTable.exists_new .pgsql
  have hexact := (ordered_sampleEngine Service.sample.dialect).toExact
  refine ⟨dbs, hdbs, tick_database hexact orders_sampleStoreEngine hdbs 1700000000 ?_⟩
  intro isSub r hr
  cases isSub with
  | false =>
    obtain rfl := List.mem_singleton.mp hr
    decide
  | true => cases hr

end OwSec

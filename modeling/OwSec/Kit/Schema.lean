import OwSec.Kit.Brackets
import OwSec.Kit.Quoting

/-!
# Statements that define tables

The fragment of the data definition language that consists of tables with columns and indexes, as
syntax trees and as the tokens that they are written with.  Names are kept in lower case, as the
tokens are.
-/

namespace Kit.Sql

/-- The direction of an entry of an index. -/
inductive Direction
  | asc
  | desc
  deriving DecidableEq, Repr

/-- An entry of an index. -/
structure Entry where
  column : List Char
  direction : Direction
  deriving DecidableEq, Repr

/-- What is defined inside of a table. -/
inductive Definition
  /-- A column with the tokens of its type. -/
  | column (name : List Char) (type : List Token) (key : Bool)
  | index (name : List Char) (entries : List Entry)
  deriving DecidableEq, Repr

/-- The statements; a table and an index are created unless they exist. -/
inductive Statement
  | createTable (name : List Char) (definitions : List Definition)
  | createIndex (name table : List Char) (entries : List Entry)
  deriving DecidableEq, Repr

/-- A keyword. -/
def keyword (w : String) : Token := .word w.toList

/-- The round brackets. -/
def opening : Token := .symbol '('

/-- The round brackets. -/
def closing : Token := .symbol ')'

/-- Something in brackets. -/
def bracketed (ts : List Token) : List Token := opening :: (ts ++ [closing])

/-- A list with commas. -/
def commas (tss : List (List Token)) : List Token := [.symbol ','].intercalate tss

def Direction.token : Direction → Token
  | .asc => keyword "asc"
  | .desc => keyword "desc"

def Entry.tokens (e : Entry) : List Token := [.word e.column, e.direction.token]

def Definition.tokens : Definition → List Token
  | .column name type key =>
    .word name :: (type ++ if key then [keyword "unique", keyword "primary", keyword "key"] else [])
  | .index name entries =>
    keyword "index" :: .word name :: bracketed (commas (entries.map Entry.tokens))

/-- The tokens of a statement. -/
def Statement.tokens : Statement → List Token
  | .createTable name definitions =>
    [keyword "create", keyword "table", keyword "if", keyword "not", keyword "exists", .word name]
      ++ bracketed (commas (definitions.map Definition.tokens))
  | .createIndex name table entries =>
    [keyword "create", keyword "index", keyword "if", keyword "not", keyword "exists", .word name,
      keyword "on", .word table] ++ bracketed (commas (entries.map Entry.tokens))

/-! ## Separators -/

theorem separates_blank : Separates [' '] [] := by decide

theorem separates_opening : Separates ['('] [opening] := by decide

theorem separates_closing : Separates [')'] [closing] := by decide

/-- An opening bracket between blanks. -/
theorem separates_opening_blanks : Separates [' ', '(', ' '] [opening] := by decide

/-- A closing bracket behind a blank. -/
theorem separates_blank_closing : Separates [' ', ')'] [closing] := by decide

/-! ## Brackets -/

/-- The round brackets of some tokens are balanced. -/
abbrev Matched (ts : List Token) : Prop := Balanced opening closing ts

/-- Words are no brackets. -/
theorem matched_of_words {ts : List Token} (h : ∀ t ∈ ts, ∃ w, t = .word w) : Matched ts := by
  refine .of_notMem (fun hmem ↦ ?_) fun hmem ↦ ?_
  · obtain ⟨w, hw⟩ := h _ hmem
    cases hw
  · obtain ⟨w, hw⟩ := h _ hmem
    cases hw

/-- A list of entries is balanced. -/
theorem matched_commas {tss : List (List Token)} (h : ∀ ts ∈ tss, Matched ts) :
    Matched (commas tss) :=
  Balanced.intercalate (.other (by decide) (by decide)) h

theorem Entry.matched (e : Entry) : Matched e.tokens := by
  refine matched_of_words ?_
  simp only [Entry.tokens, List.forall_mem_cons]
  exact ⟨⟨_, rfl⟩, by cases e.direction <;> exact ⟨_, rfl⟩, by simp⟩

/-- The type of a column is balanced. -/
def Definition.TypeMatched : Definition → Prop
  | .column _ type _ => Matched type
  | .index _ _ => True

theorem Definition.matched {d : Definition} (h : d.TypeMatched) : Matched d.tokens := by
  cases d with
  | column name type key =>
    refine (Balanced.other (a := .word name) (by simp [opening]) (by simp [closing])).append
      (h.append ?_)
    cases key
    · exact .nil
    · exact matched_of_words (by simp [keyword])
  | index name entries =>
    have hwords : Matched [keyword "index", .word name] := matched_of_words (by simp [keyword])
    refine hwords.append (.wrap (matched_commas ?_))
    rw [List.forall_mem_map]
    exact fun e _ ↦ e.matched

/-- The brackets of a statement are balanced. -/
theorem Statement.matched {s : Statement}
    (h : ∀ name definitions, s = .createTable name definitions →
      ∀ d ∈ definitions, d.TypeMatched) : Matched s.tokens := by
  cases s with
  | createTable name definitions =>
    refine (matched_of_words (by simp [keyword])).append (.wrap (matched_commas ?_))
    rw [List.forall_mem_map]
    exact fun d hd ↦ Definition.matched (h name definitions rfl d hd)
  | createIndex name table entries =>
    refine (matched_of_words (by simp [keyword])).append (.wrap (matched_commas ?_))
    rw [List.forall_mem_map]
    exact fun e _ ↦ e.matched

end Kit.Sql

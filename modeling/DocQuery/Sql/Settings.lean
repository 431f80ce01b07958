import DocQuery.Condition.Disjuncts
import DocQuery.Sql.Dialect
import DocQuery.Text.Alphanumeric
import DocQuery.Text.Blank

/-! Settings: a dialect put together from a few choices, and a limit on disjuncts.

Settings that were not given are those of Postgres. `check` finds the first choice that
would not do, in the order of quote, lower-case function, false literal and limit. -/
namespace DocQuery.Sql

inductive PlaceholderStyle where
  /-- Numbered. -/
  | dollar
  /-- Told apart by position. -/
  | question
  deriving DecidableEq, Repr

structure Settings where
  placeholder : PlaceholderStyle := .dollar
  quote : Char := '"'
  lowerFn : String := "LOWER"
  falseLiteral : String := "FALSE"
  /-- The greatest number of disjuncts that a condition may have. -/
  disjunctLimit : UInt64 := 1024
  deriving DecidableEq

inductive SettingsError where
  /-- The text is not one of settings. -/
  | unreadable
  | quoteNotPunctuation
  | lowerFnEmpty
  | falseLiteralEmpty
  | disjunctLimitZero
  deriving DecidableEq, Repr

def SettingsError.message : SettingsError → String
  | unreadable => "invalid compiler config"
  | quoteNotPunctuation => "invalid compiler config: quote must be a punctuation character"
  | lowerFnEmpty => "invalid compiler config: lower_fn must not be empty"
  | falseLiteralEmpty => "invalid compiler config: false_literal must not be empty"
  | disjunctLimitZero => "invalid compiler config: max_slice_groups must be at least 1"

def PlaceholderStyle.name : PlaceholderStyle → String
  | dollar => "dollar"
  | question => "question"

def PlaceholderStyle.ofName? (name : String) : Option PlaceholderStyle :=
  if name = "dollar" then some dollar else if name = "question" then some question else none

/-- The text of the value bound at a place. -/
def PlaceholderStyle.text (style : PlaceholderStyle) (place : Nat) : String :=
  match style with
  | dollar => numberedPlaceholder place
  | question => "?"

namespace Settings

def dialect (s : Settings) : Dialect where
  quote := quoteWith s.quote
  placeholder := s.placeholder.text
  numbered := s.placeholder == .dollar
  lowerFn := s.lowerFn
  falseLiteral := s.falseLiteral

def check (s : Settings) : Except SettingsError Unit :=
  if Text.isBlank s.quote || Text.isAlphanumeric s.quote then .error .quoteNotPunctuation
  else if Text.isBlankText s.lowerFn then .error .lowerFnEmpty
  else if Text.isBlankText s.falseLiteral then .error .falseLiteralEmpty
  else if s.disjunctLimit = 0 then .error .disjunctLimitZero
  else .ok ()

/-- The disjuncts of a condition under the limit of these settings. -/
def disjuncts {α : Type} (s : Settings) (t : Tree α) :
    Except DisjunctError (List (Conjunct α)) :=
  t.disjuncts s.disjunctLimit.toNat

end Settings

end DocQuery.Sql

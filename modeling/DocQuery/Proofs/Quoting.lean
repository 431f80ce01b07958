import DocQuery.Sql.Compile
import DocQuery.Sql.Settings

/-! Identifiers between quotes.

A reader that knows the quote character finds the end of a quoted identifier, whatever the identifier
and whatever follows it: the quotes inside are doubled, and the closing one is not (`readQuoted_quote`).
So a column without a qualifier can be read back name by name (`names_of_text`), unless the quote is
the dot that stands between the names. -/
namespace DocQuery.Sql

variable {q : Char} {d : Dialect}

/-! ### Reading -/

/-- Reads on after an opening quote, up to the first quote that no second one follows. Two of them
stand for one. Gives what stands between the quotes, and what follows the closing one. -/
def readOn (q : Char) : List Char → Option (List Char × List Char)
  | [] => none
  | c :: rest =>
    if c = q then
      match rest with
      | [] => some ([], [])
      | next :: later =>
        if next = q then (readOn q later).map fun (s, after) => (q :: s, after)
        else some ([], next :: later)
    else (readOn q rest).map fun (s, after) => (c :: s, after)

/-- Reads a quoted identifier from its opening quote. -/
def readQuoted (q : Char) : List Char → Option (List Char × List Char)
  | [] => none
  | c :: rest => if c = q then readOn q rest else none

theorem readOn_of_ne {c : Char} (h : c ≠ q) (rest : List Char) :
    readOn q (c :: rest) = (readOn q rest).map fun (s, after) => (c :: s, after) := by
  rw [readOn.eq_def]
  exact if_neg h

theorem readOn_pair (q : Char) (rest : List Char) :
    readOn q (q :: q :: rest) = (readOn q rest).map fun (s, after) => (q :: s, after) := by
  rw [readOn.eq_def]
  simp only [if_true]

theorem readOn_closing {rest : List Char} (h : rest.head? ≠ some q) : readOn q (q :: rest) = some ([], rest) := by
  rw [readOn.eq_def]
  cases rest with
  | nil => simp only [if_true]
  | cons next later =>
    have hnext : next ≠ q := fun hq => h (congrArg some hq)
    simp only [if_true, if_neg hnext]

theorem readOn_doubled {rest : List Char} (h : rest.head? ≠ some q) (s : List Char) :
    readOn q (doubled q s ++ q :: rest) = some (s, rest) := by
  induction s with
  | nil => exact readOn_closing h
  | cons c s ih =>
    rw [doubled]
    by_cases hc : c = q
    · rw [if_pos hc, List.cons_append, List.cons_append, readOn_pair, ih, hc]
      rfl
    · rw [if_neg hc, List.cons_append, readOn_of_ne hc, ih]
      rfl

theorem toList_quoteWith (q : Char) (s : String) : (quoteWith q s).toList = q :: (doubled q s.toList ++ [q]) :=
  String.toList_ofList

theorem doubled_eq_flatMap (q : Char) (s : List Char) :
    doubled q s = s.flatMap fun c => if c = q then [q, q] else [c] := by
  induction s with
  | nil => rfl
  | cons c rest ih =>
    rw [doubled, ih, List.flatMap_cons]
    split <;> rfl

/-! ### Dialects -/

/-- The dialects there are, each with its quote character. -/
inductive Dialect.QuotesWith : Dialect → Char → Prop where
  | postgres : QuotesWith .postgres '"'
  | settings (s : Settings) : QuotesWith s.dialect s.quote

theorem Dialect.QuotesWith.quote (hd : d.QuotesWith q) : d.quote = quoteWith q := by
  cases hd <;> rfl

theorem readQuoted_quote (hd : d.QuotesWith q) (s : String) {rest : List Char} (h : rest.head? ≠ some q) :
    readQuoted q ((d.quote s).toList ++ rest) = some (s.toList, rest) := by
  rw [hd.quote, toList_quoteWith, List.cons_append, readQuoted, if_pos rfl, List.append_assoc]
  exact readOn_doubled h s.toList

/-! ### Columns -/

/-- What stands after the first of several names. -/
def afterFirst (d : Dialect) : List String → List Char
  | [] => []
  | names => '.' :: (".".intercalate (names.map d.quote)).toList

theorem head?_afterFirst (hdot : q ≠ '.') (names : List String) : (afterFirst d names).head? ≠ some q := by
  cases names with
  | nil => exact nofun
  | cons _ _ => exact fun h => hdot (Option.some.inj h).symm

theorem toList_names (name : String) (rest : List String) :
    (".".intercalate ((name :: rest).map d.quote)).toList = (d.quote name).toList ++ afterFirst d rest := by
  cases rest with
  | nil => simp [afterFirst]
  | cons next later => simp [afterFirst]

theorem text_of_afterFirst {names names' : List String} (h : afterFirst d names = afterFirst d names') :
    ".".intercalate (names.map d.quote) = ".".intercalate (names'.map d.quote) := by
  cases names with
  | nil =>
    cases names' with
    | nil => rfl
    | cons _ _ => exact nomatch h
  | cons _ _ =>
    cases names' with
    | nil => exact nomatch h
    | cons _ _ => exact String.toList_inj.mp (List.cons.inj h).2

/-- The first name is read back from a text of names. -/
theorem readQuoted_first (hd : d.QuotesWith q) (hdot : q ≠ '.') (name : String) (rest : List String) :
    readQuoted q (".".intercalate ((name :: rest).map d.quote)).toList = some (name.toList, afterFirst d rest) := by
  rw [toList_names]
  exact readQuoted_quote hd name (head?_afterFirst hdot rest)

theorem readQuoted_none (d : Dialect) :
    readQuoted q (".".intercalate (([] : List String).map d.quote)).toList = none := by
  simp [readQuoted]

/-- Names between quotes, with dots between them, are told apart. -/
theorem names_of_text (hd : d.QuotesWith q) (hdot : q ≠ '.') {names names' : List String}
    (h : ".".intercalate (names.map d.quote) = ".".intercalate (names'.map d.quote)) : names = names' := by
  induction names generalizing names' with
  | nil =>
    cases names' with
    | nil => rfl
    | cons name' rest' =>
      have hread := readQuoted_first hd hdot name' rest'
      rw [← h, readQuoted_none] at hread
      exact nomatch hread
  | cons name rest ih =>
    have hread := readQuoted_first hd hdot name rest
    cases names' with
    | nil =>
      rw [h, readQuoted_none] at hread
      exact nomatch hread
    | cons name' rest' =>
      rw [h, readQuoted_first hd hdot name' rest'] at hread
      obtain ⟨hname, hafter⟩ := Prod.mk.inj (Option.some.inj hread)
      rw [String.toList_inj.mp hname.symm, ih (text_of_afterFirst hafter.symm)]

/-! A quote that is a dot is lost among the dots between the names. -/

example : ".".intercalate (["", "", ""].map (quoteWith '.')) = ".".intercalate (["..."].map (quoteWith '.')) := by
  decide

theorem text_columnOf (path : FieldPath) :
    (columnOf "" path).text d = ".".intercalate (path.storageNames.map d.quote) := by
  simp [columnOf, Column.text]

/-- **An identifier cannot get out of its quotes.** Its text is the quote, the identifier with every quote doubled, and
the quote. Whatever follows, unless it begins with a quote, a reader stops at the closing quote and has read the
identifier. So, unless the quote is a dot, columns without a qualifier have the same text only if they have the same
names in storage. -/
theorem quoted_identifiers_contained (hd : d.QuotesWith q) :
    (∀ s : String,
      (d.quote s).toList = q :: ((s.toList.flatMap fun c => if c = q then [q, q] else [c]) ++ [q])) ∧
    (∀ (s : String) (rest : List Char), rest.head? ≠ some q →
      readQuoted q ((d.quote s).toList ++ rest) = some (s.toList, rest)) ∧
    (q ≠ '.' → ∀ p p' : FieldPath,
      (columnOf "" p).text d = (columnOf "" p').text d ↔ p.storageNames = p'.storageNames) := by
  refine ⟨fun s => ?_, fun s rest => readQuoted_quote hd s, fun hdot p p' => ?_⟩
  · rw [hd.quote, toList_quoteWith, doubled_eq_flatMap]
  · rw [text_columnOf, text_columnOf]
    exact ⟨names_of_text hd hdot, fun h => by rw [h]⟩

/-! Columns whose names begin or end with a quote, under settings that quote with bars. -/

def bars : Settings where
  placeholder := .question
  quote := '|'

def lid (storage : String) : Document where
  path := "yard.Lid"
  name := "Lid"
  storage := "lids"
  fields := [{ name := "color", storage := storage, kind := .text }]

def crate (storage : String) : Document where
  path := "yard.Crate"
  name := "Crate"
  storage := "crates"
  fields := [{ name := "lid", storage := storage, kind := .embedded ⟨1, "Lid"⟩ }]

/-- The color of a crate's lid, with the names of both fields in storage. -/
def lidColor (first second : String) : FieldPath where
  root := crate first
  steps := [⟨crate first, { name := "lid", storage := first, kind := .embedded ⟨1, "Lid"⟩ }⟩,
    ⟨lid second, { name := "color", storage := second, kind := .text }⟩]
  nonempty := by simp

theorem quoted_identifiers_contained_bars :
    bars.dialect.QuotesWith '|' ∧ (".|b|".toList.head? ≠ some '|') ∧
      readQuoted '|' ((bars.dialect.quote "a||").toList ++ ".|b|".toList) = some ("a||".toList, ".|b|".toList) ∧
      ('|' ≠ '.' ∧ (columnOf "" (lidColor "a|" "b")).text bars.dialect = "|a|||.|b|" ∧
        (columnOf "" (lidColor "a" "|b")).text bars.dialect = "|a|.|||b|" ∧
        ((columnOf "" (lidColor "a|" "b")).text bars.dialect = (columnOf "" (lidColor "a" "|b")).text bars.dialect ↔
          (lidColor "a|" "b").storageNames = (lidColor "a" "|b").storageNames)) := by
  obtain ⟨-, hread, hcolumns⟩ := quoted_identifiers_contained (.settings bars)
  have hrest : ".|b|".toList.head? ≠ some '|' := by decide
  have hdot : '|' ≠ '.' := by decide
  exact ⟨.settings bars, hrest, hread "a||" _ hrest, hdot, by decide, by decide, hcolumns hdot _ _⟩

end DocQuery.Sql

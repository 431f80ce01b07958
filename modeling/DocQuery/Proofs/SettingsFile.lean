import DocQuery.Proofs.EntryLines
import DocQuery.Sql.Settings.File

/-! Settings in a file, written and read back.

Settings stand in a file as one line for each entry, with their strings in some form (`Spelling`). Whatever the strings
hold, the same settings are read from it (`Spelling.read_file`), and only the check can refuse them. `Offends` says for
each setting what the check is about, and `check_cases` that the first that offends is the one refused. -/
namespace DocQuery.Sql

/-! ### The check -/

/-- The settings that are checked. -/
inductive Setting where
  | quote
  | lowerFn
  | falseLiteral
  | disjunctLimit
  deriving DecidableEq, Repr

namespace Setting

/-- In the order in which they are checked. -/
def all : List Setting :=
  [quote, lowerFn, falseLiteral, disjunctLimit]

def key : Setting → String
  | quote => "quote"
  | lowerFn => "lower_fn"
  | falseLiteral => "false_literal"
  | disjunctLimit => "max_slice_groups"

/-- What is asked of the setting. -/
def rule : Setting → String
  | quote => "must be a punctuation character"
  | lowerFn => "must not be empty"
  | falseLiteral => "must not be empty"
  | disjunctLimit => "must be at least 1"

def error : Setting → SettingsError
  | quote => .quoteNotPunctuation
  | lowerFn => .lowerFnEmpty
  | falseLiteral => .falseLiteralEmpty
  | disjunctLimit => .disjunctLimitZero

theorem message_error (x : Setting) : x.error.message = "invalid compiler config: " ++ x.key ++ " " ++ x.rule := by
  cases x <;> decide

end Setting

namespace Settings

variable {s : Settings}

/-- The setting will not do: a quote that is white space, a letter or a digit, a text that is nothing but white
space, or no disjuncts at all. -/
def Offends (s : Settings) : Setting → Prop
  | .quote => Text.isBlank s.quote = true ∨ Text.isAlphanumeric s.quote = true
  | .lowerFn => ∀ c ∈ s.lowerFn.toList, Text.isBlank c = true
  | .falseLiteral => ∀ c ∈ s.falseLiteral.toList, Text.isBlank c = true
  | .disjunctLimit => s.disjunctLimit = 0

/-- The setting offends, and none that is checked before it. -/
def OffendsFirst (s : Settings) (x : Setting) : Prop :=
  s.Offends x ∧ ∃ before after, Setting.all = before ++ x :: after ∧ ∀ y ∈ before, ¬ s.Offends y

theorem isBlankText_iff {text : String} : Text.isBlankText text = true ↔ ∀ c ∈ text.toList, Text.isBlank c = true :=
  List.all_eq_true

theorem check_cases (s : Settings) :
    s.check = .ok () ∧ (∀ x, ¬ s.Offends x) ∨ ∃ x, s.check = .error x.error ∧ s.OffendsFirst x := by
  unfold check
  split
  · next h => exact .inr ⟨.quote, rfl, Bool.or_eq_true_iff.mp h, [], _, rfl, List.forall_mem_nil _⟩
  · next hquote =>
    have hquote : ¬ s.Offends .quote := mt Bool.or_eq_true_iff.mpr hquote
    split
    · next h =>
      exact .inr ⟨.lowerFn, rfl, isBlankText_iff.mp h, [.quote], _, rfl, List.forall_mem_singleton.mpr hquote⟩
    · next hlower =>
      have hlower : ¬ s.Offends .lowerFn := mt isBlankText_iff.mpr hlower
      split
      · next h =>
        refine .inr ⟨.falseLiteral, rfl, isBlankText_iff.mp h, [.quote, .lowerFn], _, rfl, ?_⟩
        exact List.forall_mem_cons.mpr ⟨hquote, List.forall_mem_singleton.mpr hlower⟩
      · next hliteral =>
        have hliteral : ¬ s.Offends .falseLiteral := mt isBlankText_iff.mpr hliteral
        split
        · next h =>
          refine .inr ⟨.disjunctLimit, rfl, h, [.quote, .lowerFn, .falseLiteral], _, rfl, ?_⟩
          exact List.forall_mem_cons.mpr ⟨hquote, List.forall_mem_cons.mpr ⟨hlower, List.forall_mem_singleton.mpr hliteral⟩⟩
        · next hlimit =>
          refine .inl ⟨rfl, fun x => ?_⟩
          cases x with
          | quote => exact hquote
          | lowerFn => exact hlower
          | falseLiteral => exact hliteral
          | disjunctLimit => exact hlimit

/-! ### The file -/

/-- The texts of the settings, with each string in one of its forms. -/
structure Spelling (s : Settings) where
  placeholder : List Char
  quote : List Char
  lowerFn : List Char
  falseLiteral : List Char
  placeholder_form : Toml.Form s.placeholder.name.toList placeholder
  quote_form : Toml.Form s.quote.toString.toList quote
  lowerFn_form : Toml.Form s.lowerFn.toList lowerFn
  falseLiteral_form : Toml.Form s.falseLiteral.toList falseLiteral

namespace Spelling

variable (p : s.Spelling)

def lines : List Toml.Line :=
  [⟨"placeholder", p.placeholder, .string s.placeholder.name⟩, ⟨"quote", p.quote, .string s.quote.toString⟩,
    ⟨"lower_fn", p.lowerFn, .string s.lowerFn⟩, ⟨"false_literal", p.falseLiteral, .string s.falseLiteral⟩,
    ⟨"max_slice_groups", Nat.toDigits 10 s.disjunctLimit.toNat, .integer s.disjunctLimit.toNat⟩]

/-- The file with these texts. -/
def file : String :=
  String.ofList (p.lines.flatMap Toml.Line.chars)

theorem valid_lines : ∀ l ∈ p.lines, l.Valid := by
  have hline {text : List Char} {v : Toml} (key : String) (hnonempty : key ≠ "")
      (hbare : key.toList.all Toml.isBare = true) (hreads : Toml.Reads text v) : Toml.Line.Valid ⟨key, text, v⟩ :=
    ⟨hnonempty, hbare, hreads⟩
  have hstring {given : String} {text : List Char} (h : Toml.Form given.toList text) :
      Toml.Reads text (.string given) := by
    have hreads := h.reads
    rwa [String.ofList_toList] at hreads
  refine List.forall_mem_cons.mpr ⟨?_, List.forall_mem_cons.mpr ⟨?_, List.forall_mem_cons.mpr ⟨?_,
    List.forall_mem_cons.mpr ⟨?_, List.forall_mem_singleton.mpr ?_⟩⟩⟩⟩
  · exact hline "placeholder" (by decide) (by decide) (hstring p.placeholder_form)
  · exact hline "quote" (by decide) (by decide) (hstring p.quote_form)
  · exact hline "lower_fn" (by decide) (by decide) (hstring p.lowerFn_form)
  · exact hline "false_literal" (by decide) (by decide) (hstring p.falseLiteral_form)
  · exact hline "max_slice_groups" (by decide) (by decide) (Toml.reads_toDigits _)

/-- The entries give the settings, whatever they were before. -/
theorem withEntries_lines (before : Settings) :
    withEntries before (p.lines.map fun l => (l.key, l.value)) = some s := by
  have hplaceholder : placeholderOf? (.string s.placeholder.name) = some s.placeholder := by
    cases s.placeholder <;> rfl
  have hquote : quoteOf? (.string (String.singleton s.quote)) = some s.quote := by
    simp [quoteOf?]
  have hlimit : limitOf? (.integer s.disjunctLimit.toNat) = some s.disjunctLimit := by
    have hrange : (0 : Int) ≤ s.disjunctLimit.toNat ∧ (s.disjunctLimit.toNat : Int).toNat < UInt64.size :=
      ⟨Int.natCast_nonneg _, UInt64.toNat_lt_size _⟩
    rw [limitOf?, if_pos hrange]
    simp
  simp [lines, withEntries, withEntry, hplaceholder, hquote, hlimit, textOf?]

/-- What is read are the settings, unless the check refuses them. -/
theorem read_file : read p.file = s.check.map fun _ => s := by
  have hkeys : (p.lines.map Toml.Line.key).Nodup := by
    show ["placeholder", "quote", "lower_fn", "false_literal", "max_slice_groups"].Nodup
    decide
  rw [read, file, Toml.read_lines p.valid_lines hkeys, Option.bind_some, withEntries_lines]

end Spelling

/-- The texts that are written. -/
def written (s : Settings) : s.Spelling where
  placeholder := Toml.writeChars s.placeholder.name.toList
  quote := Toml.writeChars s.quote.toString.toList
  lowerFn := Toml.writeChars s.lowerFn.toList
  falseLiteral := Toml.writeChars s.falseLiteral.toList
  placeholder_form := Toml.form_writeChars _
  quote_form := Toml.form_writeChars _
  lowerFn_form := Toml.form_writeChars _
  falseLiteral_form := Toml.form_writeChars _

theorem file_written (s : Settings) : s.written.file = s.write := by
  rw [← String.toList_inj]
  simp [write, entryText, Spelling.file, Spelling.lines, written, Toml.Line.chars, Toml.write]

/-- **Settings survive the file.** Whatever their texts hold, the settings that were written are read again just when
they pass the check, which is when none of them offends; otherwise reading fails, and names the first that does. All
this does not depend on the forms in which the strings are written. -/
theorem read_write (s : Settings) :
    (read s.write = .ok s ↔ s.check = .ok ()) ∧ (s.check = .ok () ↔ ∀ x, ¬ s.Offends x) ∧
    (read s.write = .ok s ∨ ∃ x, s.OffendsFirst x ∧ read s.write = .error x.error ∧
      x.error.message = "invalid compiler config: " ++ x.key ++ " " ++ x.rule) ∧
    ∀ p : s.Spelling, read p.file = read s.write := by
  rw [← file_written, s.written.read_file]
  refine and_assoc.mp ⟨?_, ?_, fun p => p.read_file⟩
  all_goals rcases s.check_cases with ⟨hcheck, hnone⟩ | ⟨x, hcheck, hfirst⟩
  all_goals rw [hcheck]
  · exact ⟨iff_of_true rfl rfl, iff_of_true rfl hnone⟩
  · exact ⟨iff_of_false nofun nofun, iff_of_false nofun fun hnone => hnone x hfirst.1⟩
  · exact .inl rfl
  · exact .inr ⟨x, hfirst, rfl, x.message_error⟩

end Settings

end DocQuery.Sql

import DocQuery.Proofs.StringForms
import DocQuery.Toml.Reader

/-! Lines of entries in TOML, read as what they give.

Whole numbers and strings are read from their texts (`reads_toDigits`, `Form.reads`). A line gives such a value
to a bare key, and lines with different keys are read as their entries, in order (`read_lines`). -/
namespace DocQuery

namespace Toml

variable {c : Char} {n fuel : Nat} {text rest more : List Char} {entries : Entries} {key : String} {v : Toml}

/-! ### Whole numbers -/

theorem digitIn?_of_isDigit (h : c.isDigit = true) : digitIn? 10 c = some (c.toNat - 48) := by
  have hrange : '0' ≤ c ∧ c ≤ '9' := by
    simpa [Char.isDigit, Char.le_def] using h
  have hbound : c.toNat - 48 < 10 := by
    have : c.toNat ≤ 57 := hrange.2
    omega
  unfold digitIn? Text.hexValue?
  rw [if_pos hrange]
  exact if_pos hbound

theorem readDigits_append {digits : List Char} (h : ∀ c ∈ digits, c.isDigit = true) (value : Nat) :
    readDigits 10 value (digits ++ '\n' :: more) = some (Nat.ofDigitChars 10 digits value, '\n' :: more) := by
  induction digits generalizing value with
  | nil => rfl
  | cons c digits ih =>
    obtain ⟨hc, hdigits⟩ := List.forall_mem_cons.mp h
    have hne : c ≠ '_' := fun heq => absurd (heq ▸ hc) (by decide)
    rw [List.cons_append, readDigits, digitIn?_of_isDigit hc]
    · simp only [ih hdigits, Nat.ofDigitChars_cons, Nat.mul_comm value]
      rfl
    · exact fun _ _ heq _ => hne heq
    · exact fun heq _ => hne heq

theorem exists_toDigits (hn : n ≠ 0) : ∃ d digits, Nat.toDigits 10 n = d :: digits ∧ d ≠ '0' := by
  induction n using Nat.strongRecOn with
  | _ n ih =>
    by_cases hsmall : n < 10
    · exact ⟨_, _, Nat.toDigits_of_lt_base hsmall, fun h => hn (Nat.digitChar_eq_zero.mp h)⟩
    · obtain ⟨d, digits, hd, hne⟩ := ih (n / 10) (by omega) (by omega)
      refine ⟨d, digits ++ [Nat.digitChar (n % 10)], ?_, hne⟩
      rw [Nat.toDigits_of_base_le (by decide) (by omega), hd, List.cons_append]

theorem readInteger_toDigits (n : Nat) (more : List Char) :
    readInteger (Nat.toDigits 10 n ++ '\n' :: more) = some ((n : Int), '\n' :: more) := by
  by_cases hn : n = 0
  · subst hn
    rfl
  · obtain ⟨d, digits, hdigits, hzero⟩ := exists_toDigits hn
    have hall : ∀ c ∈ d :: digits, c.isDigit = true := fun c hc =>
      Nat.isDigit_of_mem_toDigits (by decide) (by decide) (hdigits ▸ hc)
    obtain ⟨hd, htail⟩ := List.forall_mem_cons.mp hall
    have hvalue : Nat.ofDigitChars 10 digits (d.toNat - 48) = n := by
      have h := Nat.ofDigitChars_ten_toDigits (n := n)
      rw [hdigits, Nat.ofDigitChars_cons, Nat.mul_zero, Nat.zero_add] at h
      exact h
    have hnatural : readDecimal (d :: (digits ++ '\n' :: more)) = some (n, '\n' :: more) := by
      rw [readDecimal, readNatural, digitIn?_of_isDigit hd]
      · show readDigits 10 (d.toNat - 48) (digits ++ '\n' :: more) = _
        rw [readDigits_append htail, hvalue]
      · exact fun _ _ heq => hzero (List.cons.inj heq).1
    have hne (c : Char) (hc : c.isDigit = false) : d ≠ c := fun heq => absurd (heq ▸ hd) (by simp [hc])
    rw [hdigits, List.cons_append, readInteger, hnatural]
    · rfl
    · exact fun _ heq => hzero (List.cons.inj heq).1
    · exact fun _ heq => hzero (List.cons.inj heq).1
    · exact fun _ heq => hzero (List.cons.inj heq).1
    · exact fun _ heq => hne '-' rfl (List.cons.inj heq).1
    · exact fun _ heq => hne '+' rfl (List.cons.inj heq).1

/-! ### Values -/

/-- The value is read from its text, whatever lines come after it. -/
structure Reads (text : List Char) (v : Toml) : Prop where
  read : ∀ fuel more, readValue (fuel + 1) (text ++ '\n' :: more) = some (v, '\n' :: more)
  start : ∀ more, skipSpace (text ++ more) = text ++ more

theorem skipSpace_cons (hspace : c ≠ ' ') (htab : c ≠ '\t') : skipSpace (c :: rest) = c :: rest :=
  List.dropWhile_cons_of_neg (by simp [hspace, htab])

theorem reads_toDigits (n : Nat) : Reads (Nat.toDigits 10 n) (.integer n) := by
  obtain ⟨d, digits, hdigits⟩ := List.exists_cons_of_ne_nil (Nat.toDigits_ne_nil (b := 10) (n := n))
  have hd : d.isDigit = true := Nat.isDigit_of_mem_toDigits (by decide) (by decide) (hdigits ▸ List.mem_cons_self ..)
  have hne (c : Char) (hc : c.isDigit = false) : d ≠ c := fun heq => absurd (heq ▸ hd) (by simp [hc])
  refine ⟨fun fuel more => ?_, fun more => ?_⟩
  · have hread := readInteger_toDigits n more
    rw [hdigits, List.cons_append] at hread ⊢
    rw [readValue, if_neg, hread]
    · rfl
    · exact not_or.mpr ⟨hne '"' rfl, hne '\'' rfl⟩
    · exact hne '[' rfl
    · exact hne '{' rfl
  · rw [hdigits]
    exact skipSpace_cons (hne ' ' rfl) (hne '\t' rfl)

/-- A string is read in whatever form it is. -/
theorem Form.reads {cs : List Char} (h : Form cs text) : Reads text (.string (String.ofList cs)) := by
  obtain ⟨q, tail, hq, htext⟩ := h.start
  refine ⟨fun fuel more => ?_, fun more => ?_⟩
  · have hread := h.read ('\n' :: more) (by rintro q (rfl | rfl) <;> simp)
    rw [htext, List.cons_append] at hread ⊢
    rw [readValue, if_pos hq, hread]
    · rfl
    · rintro rfl
      exact absurd hq (by decide)
    · rintro rfl
      exact absurd hq (by decide)
  · rw [htext]
    rcases hq with rfl | rfl
    · exact skipSpace_cons (by decide) (by decide)
    · exact skipSpace_cons (by decide) (by decide)

/-! ### Lines -/

/-- A line that gives a value to a key. -/
structure Line where
  key : String
  text : List Char
  value : Toml

namespace Line

def chars (l : Line) : List Char :=
  l.key.toList ++ ' ' :: '=' :: ' ' :: (l.text ++ ['\n'])

/-- The key can be written without quotes, and the value is read from its text. -/
structure Valid (l : Line) : Prop where
  nonempty : l.key ≠ ""
  bare : l.key.toList.all isBare = true
  reads : Reads l.text l.value

end Line

variable {l : Line} {lines : List Line}

theorem ne_of_isBare {d : Char} (h : isBare c = true) (hd : isBare d = false) : c ≠ d := by
  rintro rfl
  exact absurd h (by simp [hd])

/-- A bare key begins with a character that tells it from anything else on a line. -/
theorem exists_isBare (hnonempty : key ≠ "") (hbare : key.toList.all isBare = true) :
    ∃ k tail, key.toList = k :: tail ∧ isBare k = true := by
  obtain ⟨k, tail, hkey⟩ := List.exists_cons_of_ne_nil (mt String.toList_eq_nil_iff.mp hnonempty)
  exact ⟨k, tail, hkey, List.all_eq_true.mp hbare k (hkey ▸ List.mem_cons_self ..)⟩

theorem readKey_bare (fuel : Nat) (rest : List Char) (hnonempty : key ≠ "") (hbare : key.toList.all isBare = true) :
    readKey (fuel + 1) (key.toList ++ ' ' :: '=' :: rest) = some ([key], '=' :: rest) := by
  obtain ⟨k, tail, hkey, hk⟩ := exists_isBare hnonempty hbare
  have hskip : skipSpace (key.toList ++ ' ' :: '=' :: rest) = key.toList ++ ' ' :: '=' :: rest := by
    rw [hkey]
    exact skipSpace_cons (ne_of_isBare hk (by decide)) (ne_of_isBare hk (by decide))
  have hname : (key.toList ++ ' ' :: '=' :: rest).takeWhile isBare = key.toList := by
    rw [List.takeWhile_append_of_pos (List.all_eq_true.mp hbare), List.takeWhile_cons_of_neg (by decide), List.append_nil]
  have hread : readName (key.toList ++ ' ' :: '=' :: rest) = some (key, ' ' :: '=' :: rest) := by
    unfold readName
    rw [hkey, List.cons_append] at hname ⊢
    refine (if_neg (not_or.mpr ⟨ne_of_isBare hk (by decide), ne_of_isBare hk (by decide)⟩)).trans ?_
    simp only [hname]
    show some (String.ofList (k :: tail), (tail ++ ' ' :: '=' :: rest).drop tail.length) = _
    rw [← hkey, String.ofList_toList, List.drop_left]
  rw [readKey, hskip, hread]
  rfl

theorem endLine_eq_none (hspace : c ≠ ' ') (htab : c ≠ '\t') (hcomment : c ≠ '#') (hline : c ≠ '\n') (hreturn : c ≠ '\r') :
    endLine (c :: rest) = none := by
  have hkept : skipComment (c :: rest) = some (c :: rest) := by
    rw [skipComment]
    exact fun _ heq => hcomment (List.cons.inj heq).1
  unfold endLine
  rw [skipSpace_cons hspace htab, hkept]
  exact lineBreak?_eq_none hline hreturn

/-- A line is no header and not blank, so it adds its entry and nothing else. -/
theorem readTable_line (h : l.Valid) (hnew : entries.lookup l.key = none) :
    readTable (fuel + 1) [] entries (l.chars ++ more) = readTable fuel [] (entries ++ [(l.key, l.value)]) more := by
  obtain ⟨k, tail, hkey, hk⟩ := exists_isBare h.nonempty h.bare
  have hchars : l.chars ++ more = l.key.toList ++ ' ' :: '=' :: ' ' :: (l.text ++ '\n' :: more) := by
    simp [Line.chars]
  have hskip : skipSpace (l.chars ++ more) = l.chars ++ more := by
    rw [hchars, hkey]
    exact skipSpace_cons (ne_of_isBare hk (by decide)) (ne_of_isBare hk (by decide))
  have hend : endLine (l.chars ++ more) = none := by
    rw [hchars, hkey]
    apply endLine_eq_none <;> exact ne_of_isBare hk (by decide)
  have hread := readKey_bare (l.chars ++ more).length (' ' :: (l.text ++ '\n' :: more)) h.nonempty h.bare
  rw [← hchars] at hread
  have hvalue : readValue ((' ' :: (l.text ++ '\n' :: more)).length + 1) (skipSpace (' ' :: (l.text ++ '\n' :: more))) =
      some (l.value, '\n' :: more) := by
    show readValue _ (skipSpace (l.text ++ '\n' :: more)) = _
    rw [h.reads.start, h.reads.read]
  have hassign : assignUnder l.value [l.key] [] entries = some (entries ++ [(l.key, l.value)]) := by
    rw [assignUnder, assign, hnew]
    rfl
  rw [readTable, hskip]
  split
  · next heq => exact nomatch (hkey ▸ hchars).symm.trans heq
  · next heq => exact absurd (List.cons.inj ((hkey ▸ hchars).symm.trans heq)).1 (ne_of_isBare hk (by decide))
  · simp only [hend, hread, Option.bind_eq_bind, Option.bind_some, hvalue, hassign]
    rfl

theorem readTable_lines (h : ∀ l ∈ lines, l.Valid) (hnodup : (entries.map Prod.fst ++ lines.map Line.key).Nodup)
    (extra : Nat) : readTable (extra + lines.length + 1) [] entries (lines.flatMap Line.chars) =
      some (entries ++ lines.map fun l => (l.key, l.value)) := by
  induction lines generalizing entries with
  | nil =>
    rw [List.map_nil, List.append_nil]
    rfl
  | cons l rest ih =>
    obtain ⟨hl, hrest⟩ := List.forall_mem_cons.mp h
    have hnew : entries.lookup l.key = none := by
      refine List.lookup_eq_none_iff.mpr fun entry hentry => bne_iff_ne.mpr ?_
      intro heq
      exact (List.nodup_append.mp hnodup).2.2 _ (List.mem_map_of_mem hentry) _ (List.mem_cons_self ..) heq.symm
    show readTable (extra + rest.length + 1 + 1) [] entries (l.chars ++ rest.flatMap Line.chars) = _
    rw [readTable_line hl hnew, ih hrest]
    · rw [List.append_assoc]
      rfl
    · simpa using hnodup

/-- The fuel for a text is enough for its lines. -/
theorem length_le_flatMap (lines : List Line) : lines.length ≤ (lines.flatMap Line.chars).length := by
  induction lines with
  | nil => exact Nat.le_refl 0
  | cons l rest ih =>
    rw [List.flatMap_cons, List.length_append, Line.chars, List.length_append, List.length_cons, List.length_cons]
    omega

/-- A text of lines with different keys is read as what they give. -/
theorem read_lines (h : ∀ l ∈ lines, l.Valid) (hnodup : (lines.map Line.key).Nodup) :
    Toml.read (String.ofList (lines.flatMap Line.chars)) = some (lines.map fun l => (l.key, l.value)) := by
  have hmark : dropMark (lines.flatMap Line.chars) = lines.flatMap Line.chars := by
    cases lines with
    | nil => rfl
    | cons l rest =>
      obtain ⟨hl, -⟩ := List.forall_mem_cons.mp h
      obtain ⟨k, tail, hkey, hk⟩ := exists_isBare hl.nonempty hl.bare
      rw [List.flatMap_cons, Line.chars, hkey]
      unfold dropMark
      split
      · next heq => exact absurd (List.cons.inj heq).1 (ne_of_isBare hk (by decide))
      · rfl
  obtain ⟨extra, hextra⟩ := Nat.exists_eq_add_of_le' (length_le_flatMap lines)
  unfold Toml.read
  simp only [String.toList_ofList, hmark, hextra]
  exact readTable_lines h (by simpa using hnodup) extra

end Toml

end DocQuery

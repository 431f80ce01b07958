import DocQuery.Toml.Quoted

/-! Strings in TOML, written and read back.

`Spells` says how the text between two quotes spells characters: as they are or escaped, and with no more quotes
in a row than may stand there. With the quotes around it such a text is a string in one of four forms (`Form`). What is
written is one (`form_writeChars`), and every one is read as the characters that it spells (`Form.read`). -/
namespace DocQuery.Toml

variable {q c : Char} {limit run fuel : Nat} {breaks multiline : Bool} {text cs rest : List Char}

/-! ### Escapes -/

/-- What stands after a backslash spells the character, on the same line. -/
structure Escapes (c : Char) (e : List Char) : Prop where
  read : ∀ rest, readEscape (e ++ rest) = some (c, rest)
  sameLine : ∀ rest, continued? (e ++ rest) = none

theorem readHex_append {count value : Nat} {digits : List Char} (h : readHex count value digits = some (c, []))
    (rest : List Char) : readHex count value (digits ++ rest) = some (c, rest) := by
  induction count generalizing value digits with
  | zero =>
    by_cases hvalid : value.isValidChar
    · have hread (cs : List Char) : readHex 0 value cs = some (Char.ofNatAux value hvalid, cs) := dif_pos hvalid
      rw [hread] at h ⊢
      obtain ⟨rfl, rfl⟩ := Prod.mk.inj (Option.some.inj h)
      rw [List.nil_append]
    · have hread : readHex 0 value digits = none := dif_neg hvalid
      exact absurd (hread.symm.trans h) (Option.some_ne_none _).symm
  | succ count ih =>
    cases digits with
    | nil => exact nomatch h
    | cons d digits =>
      obtain ⟨digit, hdigit, h⟩ := Option.bind_eq_some_iff.mp h
      show ((Text.hexValue? d).bind fun digit => readHex count (value * 16 + digit) (digits ++ rest)) = _
      rw [hdigit]
      exact ih h

theorem readHex_hex4 : ∀ n < 128, readHex 4 0 (hex4 n) = some (Char.ofNat n, []) := by
  decide

theorem lt_of_isControl (h : isControl c = true) : c.toNat < 128 := by
  unfold isControl at h
  simp only [Bool.or_eq_true, Bool.and_eq_true, decide_eq_true_eq, beq_iff_eq] at h
  omega

theorem escape_escapes (h : c.toNat < 128) : ∃ e, escape c = '\\' :: e ∧ Escapes c e := by
  unfold escape
  split
  case h_8 =>
    refine ⟨_, rfl, fun rest => ?_, fun _ => rfl⟩
    have hhex := readHex_append (readHex_hex4 c.toNat h) rest
    rwa [Char.ofNat_toNat] at hhex
  all_goals exact ⟨_, rfl, fun _ => rfl, fun _ => rfl⟩

/-! ### Spelling -/

/-- The text spells the characters between quotes `q`, of which at most `limit` stand in a row, `run` before the text. -/
inductive Spells (q : Char) (limit : Nat) (breaks : Bool) : Nat → List Char → List Char → Prop where
  | nil (run : Nat) : Spells q limit breaks run [] []
  | quote {run : Nat} {text cs : List Char} (few : run < limit) (rest : Spells q limit breaks (run + 1) text cs) :
    Spells q limit breaks run (q :: text) (q :: cs)
  | plain {run : Nat} {c : Char} {text cs : List Char} (other : c ≠ q) (printed : isControl c = false)
    (unescaped : c = '\\' → q ≠ '"') (line : c = '\n' → breaks = true) (rest : Spells q limit breaks 0 text cs) :
    Spells q limit breaks run (c :: text) (c :: cs)
  | escaped {run : Nat} {c : Char} {e text cs : List Char} (double : q = '"') (escape : Escapes c e)
    (rest : Spells q limit breaks 0 text cs) : Spells q limit breaks run ('\\' :: (e ++ text)) (c :: cs)

theorem escapeAll_spells (multiline : Bool) (limit run : Nat) (cs : List Char) :
    Spells '"' limit multiline run (escapeAll multiline limit run cs) cs := by
  induction cs generalizing run with
  | nil => exact .nil run
  | cons c rest ih =>
    have hescaped (h : c.toNat < 128) :
        Spells '"' limit multiline run (escape c ++ escapeAll multiline limit 0 rest) (c :: rest) := by
      obtain ⟨e, he, hescapes⟩ := escape_escapes h
      rw [he]
      exact .escaped rfl hescapes (ih 0)
    unfold escapeAll
    split
    · next hquote =>
      subst hquote
      split
      · next hfew => exact .quote hfew (ih (run + 1))
      · exact hescaped (by decide)
    · next hother =>
      split
      · next hspecial =>
        simp only [Bool.or_eq_true, Bool.and_eq_true, decide_eq_true_eq] at hspecial
        rcases hspecial with ((hcontrol | rfl) | rfl) | ⟨rfl, -⟩
        · exact hescaped (lt_of_isControl hcontrol)
        · exact hescaped (by decide)
        · exact hescaped (by decide)
        · exact hescaped (by decide)
      · next hplain =>
        simp only [Bool.or_eq_true, Bool.and_eq_true, decide_eq_true_eq, not_or, not_and, Bool.not_eq_true,
          Bool.not_eq_eq_eq_not, Bool.not_true, Bool.not_eq_false] at hplain
        obtain ⟨⟨⟨hcontrol, -⟩, hbackslash⟩, hline⟩ := hplain
        exact .plain hother hcontrol (fun hc => absurd hc hbackslash) hline (ih 0)

theorem le_longestRun (q : Char) (run : Nat) (cs : List Char) : run ≤ longestRun q run cs := by
  induction cs generalizing run with
  | nil => exact Nat.le_refl run
  | cons c rest ih =>
    unfold longestRun
    split
    · exact Nat.le_trans (Nat.le_succ run) (ih (run + 1))
    · exact Nat.le_max_left _ _

theorem literal_spells (hq : q ≠ '"') (hcontrol : ∀ c ∈ cs, isControl c = false) (hline : '\n' ∈ cs → breaks = true)
    (hrun : longestRun q run cs ≤ limit) : Spells q limit breaks run cs cs := by
  induction cs generalizing run with
  | nil => exact .nil run
  | cons c rest ih =>
    have hcontrol' := List.forall_mem_cons.mp hcontrol
    have hline' (h : '\n' ∈ rest) : breaks = true := hline (List.mem_cons_of_mem _ h)
    unfold longestRun at hrun
    split at hrun
    · next hquote =>
      subst hquote
      exact .quote (Nat.lt_of_lt_of_le (Nat.lt_succ_self run) (Nat.le_trans (le_longestRun _ _ _) hrun))
        (ih hcontrol'.2 hline' hrun)
    · next hother =>
      refine .plain hother hcontrol'.1 (fun _ => hq) (fun hc => hline (hc ▸ List.mem_cons_self ..))
        (ih hcontrol'.2 hline' (Nat.le_trans (Nat.le_max_right _ _) hrun))

/-! ### Strings on one line -/

theorem readLine_spells (h : Spells q 0 false run text cs) (extra : Nat) :
    readLine q (extra + cs.length + 1) (text ++ q :: rest) = some (cs, rest) := by
  induction h with
  | nil => exact if_pos rfl
  | quote few => exact absurd few (Nat.not_lt_zero _)
  | @plain _ c text cs other printed unescaped line _ ih =>
    have hline : ¬ (isControl c || c = '\n') = true := by simpa [printed] using line
    show readLine q (extra + cs.length + 1 + 1) (c :: (text ++ q :: rest)) = _
    rw [readLine, if_neg other, if_neg fun h => unescaped h.1 h.2, if_neg hline, ih]
    rfl
  | @escaped _ c e text cs double escape _ ih =>
    subst double
    show readLine '"' (extra + cs.length + 1 + 1) ('\\' :: (e ++ text ++ '"' :: rest)) = _
    rw [readLine, if_neg (by decide), if_pos ⟨rfl, rfl⟩, List.append_assoc, escape.read]
    show (readLine '"' (extra + cs.length + 1) (text ++ '"' :: rest)).bind _ = _
    rw [ih]
    rfl

theorem Spells.length_le (h : Spells q limit breaks run text cs) : cs.length ≤ text.length := by
  induction h with
  | nil => exact Nat.le_refl 0
  | quote _ _ ih => exact Nat.succ_le_succ ih
  | plain _ _ _ _ _ ih => exact Nat.succ_le_succ ih
  | escaped _ _ _ ih =>
    rw [List.length_cons, List.length_cons, List.length_append]
    omega

/-- A string seems to be on one line unless it begins with three quotes. -/
theorem readString_eq_readLine (hq : q = '"' ∨ q = '\'') (h : ∀ tail, text ≠ q :: q :: tail) :
    readString (q :: text) = readLine q (text.length + 1) text := by
  refine (if_pos hq).trans ?_
  split
  · next a b tail =>
    rw [if_neg]
    · rfl
    · rintro ⟨rfl, rfl⟩
      exact h tail rfl
  · rfl

theorem readString_line (hq : q = '"' ∨ q = '\'') (h : Spells q 0 false 0 text cs) (hrest : rest.head? ≠ some q) :
    readString (q :: (text ++ q :: rest)) = some (cs, rest) := by
  have hone : ∀ tail, text ++ q :: rest ≠ q :: q :: tail := by
    intro tail htail
    cases h with
    | nil => exact hrest (congrArg List.head? (List.cons.inj htail).2)
    | quote few => exact absurd few (Nat.not_lt_zero _)
    | plain other => exact other (List.cons.inj htail).1
    | escaped double => exact absurd (double ▸ (List.cons.inj htail).1) (by decide)
  have hlength : cs.length ≤ (text ++ q :: rest).length := by
    rw [List.length_append]
    exact Nat.le_trans h.length_le (Nat.le_add_right _ _)
  obtain ⟨extra, hextra⟩ := Nat.exists_eq_add_of_le' hlength
  rw [readString_eq_readLine hq hone, hextra]
  exact readLine_spells h extra

/-! ### Strings over several lines -/

/-- Quotes at the start of what is spelt either are all of it, or too few to close the string. -/
theorem Spells.start (h : Spells q 2 breaks run text cs) (hrun : run ≤ 2) :
    (∃ n, n + run ≤ 2 ∧ text = List.replicate n q ∧ cs = List.replicate n q) ∨
      ∀ tail, ((text ++ tail).takeWhile (· = q)).length + run < 3 := by
  induction h with
  | nil run => exact .inl ⟨0, by omega, rfl, rfl⟩
  | quote few _ ih =>
    rcases ih few with ⟨n, hn, rfl, rfl⟩ | hfew
    · exact .inl ⟨n + 1, by omega, rfl, rfl⟩
    · refine .inr fun tail => ?_
      rw [List.cons_append, List.takeWhile_cons_of_pos (by simp), List.length_cons]
      have := hfew tail
      omega
  | plain other =>
    refine .inr fun tail => ?_
    rw [List.cons_append, List.takeWhile_cons_of_neg (by simpa using other)]
    exact Nat.lt_succ_of_le (by simpa using hrun)
  | escaped double =>
    refine .inr fun tail => ?_
    rw [List.cons_append, List.takeWhile_cons_of_neg (by simp [double])]
    exact Nat.lt_succ_of_le (by simpa using hrun)

/-- The last quotes of the string stand right before those that close it. -/
theorem readLines_quotes {n : Nat} (hn : n ≤ 2) (hrest : rest.head? ≠ some q) :
    readLines q (fuel + 1) (List.replicate n q ++ q :: q :: q :: rest) = some (List.replicate n q, rest) := by
  have hquotes : List.replicate n q ++ q :: q :: q :: rest = List.replicate (n + 3) q ++ rest := by
    rw [← List.replicate_append_replicate, List.append_assoc]
    rfl
  have hnone : rest.takeWhile (· = q) = [] := by
    cases rest with
    | nil => rfl
    | cons c rest => exact List.takeWhile_cons_of_neg (by simpa using hrest)
  have hcount : (List.takeWhile (· = q) (List.replicate (n + 3) q ++ rest)).length = n + 3 := by
    rw [List.takeWhile_append_of_pos (by simp), hnone, List.append_nil, List.length_replicate]
  rw [hquotes]
  unfold readLines
  rw [hcount, Nat.min_eq_right (by omega)]
  simp

theorem lineBreak?_eq_none (hline : c ≠ '\n') (hreturn : c ≠ '\r') : lineBreak? (c :: text) = none := by
  unfold lineBreak?
  split
  · next heq => exact absurd (List.cons.inj heq).1 hline
  · next heq => exact absurd (List.cons.inj heq).1 hreturn
  · rfl

theorem ne_return_of_printed (h : isControl c = false) : c ≠ '\r' := by
  rintro rfl
  exact absurd h (by decide)

/-- A character that is neither control nor escaping stands for itself, and so do up to two quotes. -/
theorem readLines_plain (hfew : ((c :: text).takeWhile (· = q)).length < 3) (hprinted : isControl c = false)
    (hunescaped : c = '\\' → q ≠ '"') :
    readLines q (fuel + 1) (c :: text) = (readLines q fuel text).bind fun (cs, rest) => some (c :: cs, rest) := by
  rw [readLines, if_neg (by omega)]
  simp only
  rw [if_neg fun h => hunescaped h.1 h.2]
  by_cases hc : c = '\n'
  · subst hc
    rfl
  · rw [lineBreak?_eq_none hc (ne_return_of_printed hprinted)]
    simp only [hprinted]
    rfl

theorem readLines_escaped {e : List Char} (h : Escapes c e) :
    readLines '"' (fuel + 1) ('\\' :: (e ++ text)) =
      (readLines '"' fuel text).bind fun (cs, rest) => some (c :: cs, rest) := by
  rw [readLines, List.takeWhile_cons_of_neg (by decide), if_neg (by decide)]
  simp only [h.sameLine, h.read]
  rfl

theorem readLines_spells (hq : q = '"' ∨ q = '\'') (h : Spells q 2 true run text cs) (hrun : run ≤ 2)
    (hrest : rest.head? ≠ some q) (extra : Nat) :
    readLines q (extra + cs.length + 1) (text ++ q :: q :: q :: rest) = some (cs, rest) := by
  induction h with
  | nil => exact readLines_quotes (n := 0) (Nat.zero_le 2) hrest
  | @quote run text cs few h ih =>
    rcases (Spells.quote few h).start hrun with ⟨n, hn, htext, hcs⟩ | hfew
    · rw [htext, hcs]
      exact readLines_quotes (Nat.le_of_add_right_le hn) hrest
    · have hstart := Nat.lt_of_le_of_lt (Nat.le_add_right _ run) (hfew (q :: q :: q :: rest))
      have hprinted : isControl q = false := by rcases hq with rfl | rfl <;> decide
      have hunescaped : q = '\\' → q ≠ '"' := by rintro rfl; decide
      refine (readLines_plain hstart hprinted hunescaped).trans ?_
      show (readLines q (extra + cs.length + 1) (text ++ q :: q :: q :: rest)).bind _ = _
      rw [ih few]
      rfl
  | @plain run c text cs other printed unescaped _ _ ih =>
    show readLines q (extra + cs.length + 1 + 1) (c :: (text ++ q :: q :: q :: rest)) = _
    rw [readLines_plain ?_ printed unescaped, ih (Nat.zero_le 2)]
    · rfl
    · rw [List.takeWhile_cons_of_neg (by simpa using other)]
      decide
  | @escaped run c e text cs double escape _ ih =>
    subst double
    show readLines '"' (extra + cs.length + 1 + 1) ('\\' :: (e ++ text ++ '"' :: '"' :: '"' :: rest)) = _
    rw [List.append_assoc, readLines_escaped escape, ih (Nat.zero_le 2)]
    rfl

/-- No line break is dropped where the string does not begin with one. -/
theorem lineBreak?_spells (hq : q ≠ '\n' ∧ q ≠ '\r') (h : Spells q limit breaks run text cs) (hline : cs.head? ≠ some '\n') :
    lineBreak? (text ++ q :: rest) = none := by
  cases h with
  | nil => exact lineBreak?_eq_none hq.1 hq.2
  | quote => exact lineBreak?_eq_none hq.1 hq.2
  | plain _ printed =>
    exact lineBreak?_eq_none (fun hc => hline (congrArg some hc)) (ne_return_of_printed printed)
  | escaped => exact lineBreak?_eq_none (by decide) (by decide)

theorem readString_lines {first : List Char} (hq : q = '"' ∨ q = '\'') (h : Spells q 2 true 0 text cs)
    (hfirst : first = ['\n'] ∨ first = [] ∧ cs.head? ≠ some '\n') (hrest : rest.head? ≠ some q) :
    readString (q :: q :: q :: (first ++ (text ++ q :: q :: q :: rest))) = some (cs, rest) := by
  have hbreaks : q ≠ '\n' ∧ q ≠ '\r' := by rcases hq with rfl | rfl <;> decide
  have hdrop : (lineBreak? (first ++ (text ++ q :: q :: q :: rest))).getD (first ++ (text ++ q :: q :: q :: rest)) =
      text ++ q :: q :: q :: rest := by
    rcases hfirst with rfl | ⟨rfl, hline⟩
    · rfl
    · rw [List.nil_append, lineBreak?_spells hbreaks h hline]
      rfl
  have hlength : cs.length ≤ (first ++ (text ++ q :: q :: q :: rest)).length := by
    rw [List.length_append, List.length_append]
    have := h.length_le
    omega
  obtain ⟨extra, hextra⟩ := Nat.exists_eq_add_of_le' hlength
  refine (if_pos hq).trans ((if_pos ⟨rfl, rfl⟩).trans ?_)
  rw [hdrop, hextra]
  exact readLines_spells hq h (Nat.zero_le 2) hrest extra

/-! ### Forms -/

/-- The text is a string of these characters. A line break after three quotes may be left out where the string
does not begin with one. -/
inductive Form (cs : List Char) : List Char → Prop where
  | line {q : Char} {text : List Char} (quote : q = '"' ∨ q = '\'') (spells : Spells q 0 false 0 text cs) :
    Form cs (q :: (text ++ [q]))
  | lines {q : Char} {text first : List Char} (quote : q = '"' ∨ q = '\'') (spells : Spells q 2 true 0 text cs)
    (dropped : first = ['\n'] ∨ first = [] ∧ cs.head? ≠ some '\n') :
    Form cs (q :: q :: q :: (first ++ (text ++ [q, q, q])))

/-- A string begins with a quote. -/
theorem Form.start (h : Form cs text) : ∃ q tail, (q = '"' ∨ q = '\'') ∧ text = q :: tail := by
  cases h with
  | line quote => exact ⟨_, _, quote, rfl⟩
  | lines quote => exact ⟨_, _, quote, rfl⟩

/-- **A string is read as its characters, in whatever form it is.** What follows it must not be a quote. -/
theorem Form.read (h : Form cs text) (rest : List Char) (hrest : ∀ q, q = '"' ∨ q = '\'' → rest.head? ≠ some q) :
    readString (text ++ rest) = some (cs, rest) := by
  cases h with
  | line quote spells =>
    rw [List.cons_append, List.append_assoc]
    exact readString_line quote spells (hrest _ quote)
  | lines quote spells dropped =>
    simp only [List.cons_append, List.append_assoc, List.nil_append]
    exact readString_lines quote spells dropped (hrest _ quote)

/-! ### Writing -/

theorem form_basic (cs : List Char) : Form cs (basic cs) :=
  .line (.inl rfl) (escapeAll_spells false 0 0 cs)

theorem form_literal (hcontrol : ∀ c ∈ cs, isControl c = false) (hline : '\n' ∉ cs)
    (hquotes : longestRun '\'' 0 cs ≤ 0) : Form cs (literal cs) :=
  .line (.inr rfl) (literal_spells (by decide) hcontrol (fun h => absurd h hline) hquotes)

/-- A line break is written after the quotes wherever there is one in the string. -/
theorem leading_cases (cs : List Char) : leading cs = ['\n'] ∨ leading cs = [] ∧ cs.head? ≠ some '\n' := by
  unfold leading
  split
  · exact .inl rfl
  · next hline => exact .inr ⟨rfl, fun hhead => hline (by simpa using List.mem_of_mem_head? hhead)⟩

theorem form_multilineBasic (cs : List Char) : Form cs (multilineBasic cs) := by
  have h := Form.lines (.inl rfl) (escapeAll_spells true 2 0 cs) (leading_cases cs)
  simpa [multilineBasic] using h

theorem form_multilineLiteral (hcontrol : ∀ c ∈ cs, isControl c = false) (hquotes : longestRun '\'' 0 cs ≤ 2) :
    Form cs (multilineLiteral cs) := by
  have h := Form.lines (.inr rfl) (literal_spells (by decide) hcontrol (fun _ => rfl) hquotes) (leading_cases cs)
  simpa [multilineLiteral] using h

/-- Only what needs no escapes is written between single quotes. -/
theorem form_writeChars (cs : List Char) : Form cs (writeChars cs) := by
  unfold writeChars
  simp only
  split
  · exact form_basic cs
  · split
    · next h =>
      simp only [Bool.and_eq_true, Bool.not_eq_eq_eq_not, Bool.not_true, List.any_eq_false, Bool.not_eq_true,
        beq_iff_eq, List.contains_eq_mem, decide_eq_false_iff_not] at h
      obtain ⟨⟨hcontrol, hquotes⟩, hline⟩ := h
      exact form_literal hcontrol hline (Nat.le_of_eq hquotes)
    · split
      · exact form_multilineBasic cs
      · split
        · next h =>
          simp only [Bool.and_eq_true, Bool.not_eq_eq_eq_not, Bool.not_true, List.any_eq_false, Bool.not_eq_true,
            decide_eq_true_eq] at h
          exact form_multilineLiteral h.1 h.2
        · split
          · exact form_multilineBasic cs
          · exact form_basic cs

end DocQuery.Toml

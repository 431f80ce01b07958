import DocQuery.Proofs.Failing
import DocQuery.Schema.Path

/-! Walking along the names of a path.

Names lead from a document along fields: each but the last to a field that embeds the document in which the
next name stands (`Leads`). A walk succeeds just where the names lead, and else it stops at the first name
that leads nowhere (`walk_ok_iff`, `walk_error`). The names of a dotted text are what stands between its
dots, so a path is found again by its own text (`dotted_resolution`). -/
namespace DocQuery

/-! ### Fields and embedded documents -/

/-- The field is the first of that name. -/
def Document.Declares (d : Document) (name : String) (f : Field) : Prop :=
  ∃ before after, d.fields = before ++ f :: after ∧ f.name = name ∧ ∀ g ∈ before, g.name ≠ name

theorem Document.field?_eq_some_iff {d : Document} {name : String} {f : Field} :
    d.field? name = some f ↔ d.Declares name f := by
  rw [field?, List.find?_eq_some_iff_append]
  simp only [beq_iff_eq, Bool.not_eq_true', beq_eq_false_iff_ne]
  constructor
  · rintro ⟨hname, before, after, hfields, hbefore⟩
    exact ⟨before, after, hfields, hname, hbefore⟩
  · rintro ⟨before, after, hfields, hname, hbefore⟩
    exact ⟨hname, before, after, hfields, hbefore⟩

theorem Schema.opened?_eq_some_iff {s : Schema} {kind : FieldKind} {inner : Document} :
    s.opened? kind = some inner ↔ ∃ ref, kind = .embedded ref ∧ s[ref.position]? = some inner := by
  cases kind <;> simp [opened?]

namespace FieldPath

variable {schema : Schema} {root d inner : Document} {current : Option Document} {walked segment name : String}
  {names : List String} {steps : List PathStep} {f : Field} {e : PathError}

/-! ### Names that lead along fields -/

/-- From the document `d` the names lead along these steps. -/
inductive Leads (schema : Schema) : Document → List String → List PathStep → Prop where
  | last {d : Document} {name : String} {f : Field} (declared : d.Declares name f) : Leads schema d [name] [⟨d, f⟩]
  /-- The field embeds a document, from which the other names lead on. -/
  | into {d inner : Document} {name : String} {f : Field} {ref : DocumentRef} {names : List String}
    {steps : List PathStep} (declared : d.Declares name f) (kind : f.kind = .embedded ref)
    (opened : schema[ref.position]? = some inner) (rest : Leads schema inner names steps) :
    Leads schema d (name :: names) (⟨d, f⟩ :: steps)

theorem not_leads_nil : ¬Leads schema d [] steps := nofun

theorem Leads.steps_ne_nil (h : Leads schema d names steps) : steps ≠ [] := by
  cases h <;> simp

theorem Leads.names_eq (h : Leads schema d names steps) : steps.map (fun s => s.field.name) = names := by
  induction h with
  | last declared =>
    obtain ⟨_, _, -, hname, -⟩ := declared
    rw [List.map_singleton, hname]
  | into declared _ _ _ ih =>
    obtain ⟨_, _, -, hname, -⟩ := declared
    rw [List.map_cons, hname, ih]

/-- No names lead nowhere from anything, and others lead from the document that is open. -/
def Goes (schema : Schema) (current : Option Document) (names : List String) (steps : List PathStep) : Prop :=
  names = [] ∧ steps = [] ∨ ∃ d, current = some d ∧ Leads schema d names steps

theorem leads_cons_iff : Leads schema d (name :: names) steps ↔
    ∃ f rest, d.field? name = some f ∧ steps = ⟨d, f⟩ :: rest ∧ Goes schema (schema.opened? f.kind) names rest := by
  constructor
  · intro h
    cases h with
    | last declared => exact ⟨_, [], Document.field?_eq_some_iff.mpr declared, rfl, .inl ⟨rfl, rfl⟩⟩
    | into declared kind opened rest =>
      have hopened := Schema.opened?_eq_some_iff.mpr ⟨_, kind, opened⟩
      exact ⟨_, _, Document.field?_eq_some_iff.mpr declared, rfl, .inr ⟨_, hopened, rest⟩⟩
  · rintro ⟨f, rest, hf, rfl, ⟨rfl, rfl⟩ | ⟨inner, hopened, hrest⟩⟩
    · exact .last (Document.field?_eq_some_iff.mp hf)
    · obtain ⟨ref, hkind, hinner⟩ := Schema.opened?_eq_some_iff.mp hopened
      exact .into (Document.field?_eq_some_iff.mp hf) hkind hinner hrest

/-! ### The walk -/

theorem walk_found (hf : d.field? segment = some f) :
    walk schema root (some d) walked (segment :: names) =
      (walk schema root (schema.opened? f.kind) (extend walked segment) names).map (⟨d, f⟩ :: ·) := by
  rw [walk, Option.bind_some, hf]
  rfl

theorem walk_stopped (h : (current.bind fun d => d.field? segment) = none) :
    walk schema root current walked (segment :: names) = .error (.unknownField root.path (extend walked segment)) := by
  have hnone : (current.bind fun d => (d.field? segment).map fun f => (⟨d, f⟩ : PathStep)) = none := by
    cases current with
    | none => rfl
    | some d => exact congrArg (Option.map fun f => (⟨d, f⟩ : PathStep)) h
  rw [walk, hnone]

/-- A walk goes through just where the names lead. -/
theorem walk_ok_iff : walk schema root current walked names = .ok steps ↔ Goes schema current names steps := by
  induction names generalizing current walked steps with
  | nil =>
    constructor
    · intro h
      exact .inl ⟨rfl, (Except.ok.inj h).symm⟩
    · rintro (⟨-, rfl⟩ | ⟨d, -, hleads⟩)
      · rfl
      · exact absurd hleads not_leads_nil
  | cons segment rest ih =>
    cases hfound : current.bind fun d => d.field? segment with
    | none =>
      rw [walk_stopped hfound]
      refine iff_of_false nofun ?_
      rintro (⟨hnil, -⟩ | ⟨d, rfl, hleads⟩)
      · exact nomatch hnil
      · obtain ⟨f, _, hf, -⟩ := leads_cons_iff.mp hleads
        exact nomatch hfound.symm.trans hf
    | some f =>
      obtain ⟨d, rfl, hf⟩ := Option.bind_eq_some_iff.mp hfound
      rw [walk_found hf, map_eq_ok]
      constructor
      · rintro ⟨later, hwalk, rfl⟩
        exact .inr ⟨d, rfl, leads_cons_iff.mpr ⟨f, later, hf, rfl, ih.mp hwalk⟩⟩
      · rintro (⟨hnil, -⟩ | ⟨d', hd, hleads⟩)
        · exact nomatch hnil
        · obtain rfl := Option.some.inj hd
          obtain ⟨f', later, hf', rfl, hgoes⟩ := leads_cons_iff.mp hleads
          obtain rfl := Option.some.inj (hf.symm.trans hf')
          exact ⟨later, ih.mpr hgoes, rfl⟩

/-- A walk that fails stops at the first name that it cannot go on with. -/
theorem walk_error (h : walk schema root current walked names = .error e) :
    ∃ before failing after, names = before ++ failing :: after ∧ (∃ steps, Goes schema current before steps) ∧
      (∀ steps, ¬Goes schema current (before ++ [failing]) steps) ∧
      e = .unknownField root.path ((before ++ [failing]).foldl extend walked) := by
  induction names generalizing current walked with
  | nil => exact nomatch h
  | cons segment rest ih =>
    cases hfound : current.bind fun d => d.field? segment with
    | none =>
      have hstopped : ∀ steps, ¬Goes schema current [segment] steps := by
        intro steps hgoes
        have hok : walk schema root current walked [segment] = .ok steps := walk_ok_iff.mpr hgoes
        rw [walk_stopped hfound] at hok
        exact nomatch hok
      rw [walk_stopped hfound] at h
      exact ⟨[], segment, rest, rfl, ⟨[], .inl ⟨rfl, rfl⟩⟩, hstopped, (Except.error.inj h).symm⟩
    | some f =>
      obtain ⟨d, rfl, hf⟩ := Option.bind_eq_some_iff.mp hfound
      rw [walk_found hf, map_eq_error] at h
      obtain ⟨before, failing, after, rfl, ⟨steps, hbefore⟩, hfailing, rfl⟩ := ih h
      refine ⟨segment :: before, failing, after, rfl, ⟨⟨d, f⟩ :: steps, ?_⟩, ?_, rfl⟩
      · exact .inr ⟨d, rfl, leads_cons_iff.mpr ⟨f, steps, hf, rfl, hbefore⟩⟩
      · rintro steps' (⟨hnil, -⟩ | ⟨d', hd, hleads⟩)
        · exact nomatch hnil
        · obtain rfl := Option.some.inj hd
          obtain ⟨f', later, hf', -, hgoes⟩ := leads_cons_iff.mp hleads
          obtain rfl := Option.some.inj (hf.symm.trans hf')
          exact hfailing later hgoes

/-! ### Dotted texts -/

theorem splitDots_eq_splitOn (cs : List Char) : splitDots cs = cs.splitOn '.' := by
  induction cs with
  | nil => rfl
  | cons c rest ih =>
    rw [List.splitOn_cons_eq_if_modifyHead, splitDots, ih]
    simp only [beq_iff_eq]
    split
    · rfl
    · cases hsplit : rest.splitOn '.' with
      | nil => exact absurd hsplit (List.splitOn_ne_nil '.' rest)
      | cons word words => rfl

theorem dot_not_mem_splitDots {cs word : List Char} (h : word ∈ splitDots cs) : '.' ∉ word := by
  induction cs generalizing word with
  | nil =>
    rw [List.mem_singleton.mp h]
    exact List.not_mem_nil
  | cons c rest ih =>
    rw [splitDots] at h
    split at h
    · rcases List.mem_cons.mp h with rfl | h
      · exact List.not_mem_nil
      · exact ih h
    · next hc =>
      split at h
      · rw [List.mem_singleton.mp h]
        exact fun hdot => hc (List.mem_singleton.mp hdot).symm
      · next first words hsplit =>
        rw [hsplit] at ih
        rcases List.mem_cons.mp h with rfl | h
        · intro hdot
          rcases List.mem_cons.mp hdot with hdot | hdot
          · exact hc hdot.symm
          · exact ih (List.mem_cons_self ..) hdot
        · exact ih (List.mem_cons_of_mem first h)

theorem segments_ne_nil (s : String) : segments s ≠ [] := by
  rw [segments, splitDots_eq_splitOn]
  exact fun h => List.splitOn_ne_nil '.' s.toList (List.map_eq_nil_iff.mp h)

theorem dot_not_mem_segments {s name : String} (h : name ∈ segments s) : '.' ∉ name.toList := by
  obtain ⟨word, hword, rfl⟩ := List.mem_map.mp h
  rw [String.toList_ofList]
  exact dot_not_mem_splitDots hword

/-- The names and the dots between them give the text back. -/
theorem intercalate_segments (s : String) : ".".intercalate (segments s) = s := by
  refine String.toList_inj.mp ?_
  rw [String.toList_intercalate, segments, List.map_map, splitDots_eq_splitOn]
  have hid : String.toList ∘ String.ofList = id := funext fun _ => String.toList_ofList
  rw [hid, List.map_id]
  exact List.intercalate_splitOn '.'

/-- Names without dots are what stands between the dots of their text. -/
theorem segments_intercalate (hne : names ≠ []) (hdots : ∀ name ∈ names, '.' ∉ name.toList) :
    segments (".".intercalate names) = names := by
  rw [segments, String.toList_intercalate, splitDots_eq_splitOn]
  have hsplit : (".".toList.intercalate (names.map String.toList)).splitOn '.' = names.map String.toList := by
    refine List.splitOn_intercalate '.' (fun word hword => ?_) fun h => hne (List.map_eq_nil_iff.mp h)
    obtain ⟨name, hname, rfl⟩ := List.mem_map.mp hword
    exact hdots name hname
  have hid : String.ofList ∘ String.toList = id := funext fun _ => String.ofList_toList
  rw [hsplit, List.map_map, hid, List.map_id]

/-- Once something was walked, the names that follow are written after it with dots. -/
theorem foldl_extend (hwalked : walked ≠ "") (names : List String) :
    names.foldl extend walked = ".".intercalate (walked :: names) := by
  induction names generalizing walked with
  | nil => rw [List.foldl_nil, String.intercalate_singleton]
  | cons name rest ih =>
    have hextend : extend walked name = walked ++ "." ++ name :=
      if_neg fun h => hwalked (String.isEmpty_iff.mp h)
    have hne : extend walked name ≠ "" := by
      rw [hextend]
      simp
    rw [List.foldl_cons, ih hne, hextend, String.intercalate_cons_cons]
    cases rest with
    | nil => rfl
    | cons next later => simp only [String.intercalate_cons_cons, String.append_assoc]

theorem foldl_extend_empty (h : names.head? ≠ some "") : names.foldl extend "" = ".".intercalate names := by
  cases names with
  | nil => rfl
  | cons first rest =>
    have hfirst : first ≠ "" := fun hempty => h (congrArg some hempty)
    rw [List.foldl_cons]
    exact foldl_extend hfirst rest

/-! ### Resolving -/

theorem resolveSegments_ok_iff {p : FieldPath} :
    resolveSegments schema root names = .ok p ↔ p.root = root ∧ Leads schema root names p.steps := by
  constructor
  · intro h
    obtain ⟨steps, hwalk, h⟩ := bind_ok h
    cases steps with
    | nil => exact nomatch h
    | cons step steps =>
      obtain rfl := Except.ok.inj h
      rcases walk_ok_iff.mp hwalk with ⟨-, hnil⟩ | ⟨d, hd, hleads⟩
      · exact nomatch hnil
      · obtain rfl := Option.some.inj hd
        exact ⟨rfl, hleads⟩
  · obtain ⟨start, steps, nonempty⟩ := p
    rintro ⟨rfl, hleads⟩
    rw [resolveSegments, walk_ok_iff.mpr (.inr ⟨start, rfl, hleads⟩)]
    cases steps with
    | nil => exact absurd rfl nonempty
    | cons step steps => rfl

theorem resolveSegments_error (hne : names ≠ []) (h : resolveSegments schema root names = .error e) :
    ∃ before failing after, names = before ++ failing :: after ∧
      (before ≠ [] → ∃ steps, Leads schema root before steps) ∧
      (∀ steps, ¬Leads schema root (before ++ [failing]) steps) ∧
      e = .unknownField root.path ((before ++ [failing]).foldl extend "") := by
  rcases bind_error h with hwalk | ⟨steps, hwalk, hnone⟩
  · obtain ⟨before, failing, after, hnames, ⟨steps, hbefore⟩, hfailing, he⟩ := walk_error hwalk
    refine ⟨before, failing, after, hnames, fun hsome => ?_, fun steps hleads => ?_, he⟩
    · rcases hbefore with ⟨hnil, -⟩ | ⟨d, hd, hleads⟩
      · exact absurd hnil hsome
      · obtain rfl := Option.some.inj hd
        exact ⟨steps, hleads⟩
    · exact hfailing steps (.inr ⟨root, rfl, hleads⟩)
  · cases steps with
    | cons step steps => exact nomatch hnone
    | nil =>
      rcases walk_ok_iff.mp hwalk with ⟨hnil, -⟩ | ⟨d, -, hleads⟩
      · exact absurd hnil hne
      · exact nomatch hleads

/-- **A dotted text resolves just where its names lead**, from the document along fields of which each but the last
embeds the next document. The path has these fields and is written by the same text again. If the names do not lead
that far, the error gives what was walked of the text, up to the first name that leads nowhere; only if the text
begins with a dot or is empty, it can give less. -/
theorem dotted_resolution (schema : Schema) (root : Document) (s : String) :
    (segments s ≠ [] ∧ (∀ name ∈ segments s, '.' ∉ name.toList) ∧ ".".intercalate (segments s) = s) ∧
    ((∃ p, resolve schema root s = .ok p) ↔ ∃ steps, Leads schema root (segments s) steps) ∧
    (∀ p, resolve schema root s = .ok p →
      p.root = root ∧ Leads schema root (segments s) p.steps ∧ p.names = segments s ∧
        p.dotted = s ∧ resolve schema root p.dotted = .ok p ∧
        (p.isNullable = true ↔ ∃ step ∈ p.steps, step.field.nullable = true) ∧
        (p.isStored = true ↔ ∀ step ∈ p.steps, step.field.isStored = true)) ∧
    ∀ e, resolve schema root s = .error e →
      ∃ before failing after walked, segments s = before ++ failing :: after ∧
        (before ≠ [] → ∃ steps, Leads schema root before steps) ∧
        (∀ steps, ¬Leads schema root (before ++ [failing]) steps) ∧ e = .unknownField root.path walked ∧
        ((segments s).head? ≠ some "" → walked = ".".intercalate (before ++ [failing])) := by
  refine ⟨⟨segments_ne_nil s, fun name => dot_not_mem_segments, intercalate_segments s⟩, ⟨?_, ?_⟩, fun p hp => ?_,
    fun e he => ?_⟩
  · rintro ⟨p, hp⟩
    exact ⟨p.steps, (resolveSegments_ok_iff.mp hp).2⟩
  · rintro ⟨steps, hleads⟩
    exact ⟨⟨root, steps, hleads.steps_ne_nil⟩, resolveSegments_ok_iff.mpr ⟨rfl, hleads⟩⟩
  · obtain ⟨hroot, hleads⟩ := resolveSegments_ok_iff.mp hp
    have hnames : p.names = segments s := hleads.names_eq
    have hdotted : p.dotted = s := by rw [dotted, hnames, intercalate_segments]
    exact ⟨hroot, hleads, hnames, hdotted, by rwa [hdotted], List.any_eq_true, List.all_eq_true⟩
  · obtain ⟨before, failing, after, hnames, hbefore, hfailing, rfl⟩ := resolveSegments_error (segments_ne_nil s) he
    refine ⟨before, failing, after, _, hnames, hbefore, hfailing, rfl, fun hhead => foldl_extend_empty ?_⟩
    rw [hnames] at hhead
    cases before <;> exact hhead

/-! A firm in which every person has a boss, who is a person again. -/

def address : Document where
  path := "firm.Address"
  name := "Address"
  storage := "addresses"
  fields := [{ name := "city", storage := "City", kind := .text }]

def person : Document where
  path := "firm.Person"
  name := "Person"
  storage := "people"
  fields := [{ name := "name", storage := "Name", kind := .text },
    { name := "boss", storage := "Boss", kind := .embedded ⟨1, "Person"⟩, nullable := true },
    { name := "home", storage := "Home", kind := .embedded ⟨0, "Address"⟩ }]

theorem dotted_resolution_bosses :
    ∃ p, resolve [address, person] person "boss.boss.home.city" = .ok p ∧
      (Leads [address, person] person ["boss", "boss", "home", "city"] p.steps ∧ p.dotted = "boss.boss.home.city" ∧
        (p.isNullable = true ↔ ∃ step ∈ p.steps, step.field.nullable = true)) ∧
      resolve [address, person] person "boss.age.city" = .error (.unknownField "firm.Person" "boss.age") ∧
      ∀ steps, ¬Leads [address, person] person ["boss", "age", "city"] steps := by
  obtain ⟨-, -, hpath, -⟩ := dotted_resolution [address, person] person "boss.boss.home.city"
  obtain ⟨-, hresolves, -, -⟩ := dotted_resolution [address, person] person "boss.age.city"
  obtain ⟨p, hp⟩ : ∃ p, resolve [address, person] person "boss.boss.home.city" = .ok p := ⟨_, rfl⟩
  have herror : resolve [address, person] person "boss.age.city" = .error (.unknownField "firm.Person" "boss.age") :=
    rfl
  obtain ⟨-, hleads, -, hdotted, -, hnullable, -⟩ := hpath p hp
  refine ⟨p, hp, ⟨hleads, hdotted, hnullable⟩, herror, fun steps hsteps => ?_⟩
  obtain ⟨p', hp'⟩ := hresolves.mpr ⟨steps, hsteps⟩
  exact nomatch herror.symm.trans hp'

end FieldPath

end DocQuery

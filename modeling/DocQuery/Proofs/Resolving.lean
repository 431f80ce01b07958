import DocQuery.Proofs.Documents

/-! What a registry resolves to.

A frozen registry holds a table worked out beforehand. Looking a command up in it gives what a
search through the registrations would give (`resolve_freeze`): the draft of the command itself or
of its first fallback that has one. So a registry depends on no more than what the search finds
(`freeze_congr`). -/
namespace DocQuery

/-! ### Tables -/

section Tables

variable {κ ν : Type} [BEq κ] [LawfulBEq κ]

theorem lookup_map_self (f : κ → ν) (keys : List κ) (k : κ) :
    (keys.map fun key => (key, f key)).lookup k = if k ∈ keys then some (f k) else none := by
  induction keys with
  | nil => rfl
  | cons key rest ih =>
    rw [List.map_cons, List.lookup_cons, ih]
    by_cases hk : k = key
    · subst hk
      simp
    · simp [hk, beq_false_of_ne hk]

theorem lookup_filterMap_self (f : κ → Option ν) (keys : List κ) (k : κ) :
    (keys.filterMap fun key => (f key).map fun v => (key, v)).lookup k = if k ∈ keys then f k else none := by
  induction keys with
  | nil => rfl
  | cons key rest ih =>
    by_cases hk : k = key
    · subst hk
      cases hf : f k with
      | none => simp [hf, ih]
      | some v => simp [hf]
    · cases hf : f key with
      | none => simp [hf, ih, hk]
      | some v => simp [hf, ih, hk, beq_false_of_ne hk, List.lookup_cons]

end Tables

/-! ### Resolving -/

namespace Registrations

variable {r : Registrations} {document : String} {command : Command} {resolution : Resolution}

theorem draft?_some {d : Draft} (h : r.draft? document command = some d) :
    d ∈ r.drafts ∧ d.document.path = document ∧ d.command = command := by
  unfold draft? at h
  have hfound := List.find?_some h
  rw [Bool.and_eq_true, beq_iff_eq, beq_iff_eq] at hfound
  exact ⟨List.mem_of_find?_eq_some h, hfound⟩

theorem firstOf?_eq_findSome? (r : Registrations) (document : String) (command : Command) (sources : List Command) :
    r.firstOf? document command sources = sources.findSome? fun source =>
      (r.draft? document source).map fun d => ⟨d, command, source⟩ := by
  induction sources with
  | nil => rfl
  | cons source rest ih =>
    rw [firstOf?, List.findSome?_cons]
    cases r.draft? document source with
    | some d => rfl
    | none => exact ih

/-- The draft of the first command that has one, and no later one. -/
theorem firstOf?_eq_some_iff {sources : List Command} :
    r.firstOf? document command sources = some resolution ↔
      resolution.requested = command ∧ r.draft? document resolution.source = some resolution.draft ∧
        ∃ before after, sources = before ++ resolution.source :: after ∧
          ∀ earlier ∈ before, r.draft? document earlier = none := by
  rw [firstOf?_eq_findSome?, List.findSome?_eq_some_iff]
  constructor
  · rintro ⟨before, source, after, hsources, hfound, hbefore⟩
    obtain ⟨d, hd, rfl⟩ := Option.map_eq_some_iff.mp hfound
    exact ⟨rfl, hd, before, after, hsources, fun earlier hmem => Option.map_eq_none_iff.mp (hbefore earlier hmem)⟩
  · rintro ⟨rfl, hd, before, after, hsources, hbefore⟩
    refine ⟨before, resolution.source, after, hsources, ?_, fun earlier hmem => ?_⟩
    · rw [hd]
      rfl
    · rw [hbefore earlier hmem]
      rfl

/-- A resolution borrows the draft of one of the commands. -/
theorem firstOf?_some {sources : List Command} (h : r.firstOf? document command sources = some resolution) :
    resolution.requested = command ∧ resolution.source ∈ sources ∧
      r.draft? document resolution.source = some resolution.draft := by
  obtain ⟨hrequested, hdraft, before, after, rfl, -⟩ := firstOf?_eq_some_iff.mp h
  exact ⟨hrequested, List.mem_append_right before (List.mem_cons_self ..), hdraft⟩

theorem firstOf?_eq_none_iff {sources : List Command} :
    r.firstOf? document command sources = none ↔ ∀ source ∈ sources, r.draft? document source = none := by
  rw [firstOf?_eq_findSome?, List.findSome?_eq_none_iff]
  simp only [Option.map_eq_none_iff]

theorem mem_documents_of_firstOf? {sources : List Command}
    (h : r.firstOf? document command sources = some resolution) : document ∈ r.documents := by
  obtain ⟨-, -, hdraft⟩ := firstOf?_some h
  obtain ⟨hmem, hpath, -⟩ := draft?_some hdraft
  exact mem_documents.mpr ⟨resolution.draft, hmem, hpath⟩

theorem mem_all (command : Command) : command ∈ Command.all := by
  cases command <;> decide

/-- The table of a registry gives what a search gives. -/
theorem resolve_freeze (r : Registrations) (document : String) (command : Command) :
    r.freeze.resolve document command = r.firstOf? document command (command :: command.fallbacks) := by
  rw [Registry.resolve, freeze, lookup_map_self]
  by_cases hmem : document ∈ r.documents
  · rw [if_pos hmem]
    show (r.resolutions document).lookup command = _
    rw [resolutions, lookup_filterMap_self, if_pos (mem_all command)]
  · rw [if_neg hmem]
    cases hfirst : r.firstOf? document command (command :: command.fallbacks) with
    | none => rfl
    | some resolution => exact absurd (mem_documents_of_firstOf? hfirst) hmem

theorem not_mem_fallbacks (command : Command) : command ∉ command.fallbacks := by
  cases command <;> decide

/-- The draft for exactly one command is never one that is borrowed. -/
theorem draft?_freeze (r : Registrations) (document : String) (command : Command) :
    r.freeze.draft? document command = r.draft? document command := by
  show (r.freeze.resolve document command >>= fun resolution =>
    if resolution.isFallback then none else some resolution.draft) = _
  rw [resolve_freeze, firstOf?]
  cases hdraft : r.draft? document command with
  | some d =>
    have hown : Resolution.isFallback ⟨d, command, command⟩ = false := by simp [Resolution.isFallback]
    simp [hown]
  | none =>
    simp only
    cases hfirst : r.firstOf? document command command.fallbacks with
    | none => rfl
    | some resolution =>
      obtain ⟨rfl, hmem, -⟩ := firstOf?_some hfirst
      have hborrowed : resolution.isFallback = true := by
        refine bne_iff_ne.mpr fun hsame => not_mem_fallbacks resolution.requested ?_
        rwa [← hsame] at hmem
      simp [hborrowed]

theorem documents_freeze (r : Registrations) : r.freeze.documents = r.documents := by
  show (r.documents.map fun path => (path, r.resolutions path)).map (fun entry => entry.1) = _
  rw [List.map_map]
  exact List.map_id _

theorem mem_documents_iff_draft? {path : String} :
    path ∈ r.documents ↔ ∃ command d, r.draft? path command = some d := by
  rw [mem_documents]
  constructor
  · rintro ⟨d, hmem, rfl⟩
    have hfound : (r.draft? d.document.path d.command).isSome = true :=
      List.find?_isSome.mpr ⟨d, hmem, by simp⟩
    exact ⟨d.command, Option.isSome_iff_exists.mp hfound⟩
  · rintro ⟨command, d, hdraft⟩
    obtain ⟨hmem, hpath, -⟩ := draft?_some hdraft
    exact ⟨d, hmem, hpath⟩

/-- A registry depends on no more than what the registrations hold for each document and command. -/
theorem freeze_congr {r' : Registrations} (hdrafts : ∀ document command, r.draft? document command =
    r'.draft? document command) (hcompositions : r.compositions = r'.compositions) : r.freeze = r'.freeze := by
  have hdocuments : r.documents = r'.documents := by
    refine documents_eq fun path => ?_
    simp only [mem_documents_iff_draft?, hdrafts]
  have hresolutions : r.resolutions = r'.resolutions := by
    funext document
    simp only [resolutions, firstOf?_eq_findSome?, hdrafts]
  rw [freeze, freeze, hdocuments, hresolutions, hcompositions]

end Registrations

end DocQuery

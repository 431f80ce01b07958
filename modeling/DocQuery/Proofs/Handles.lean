import DocQuery.Proofs.Calls
import DocQuery.Proofs.Statements
import DocQuery.Proofs.Walking
import DocQuery.Registry

/-! Fields by their handles.

A handle's selector finds the field that a document declares, whatever its name is
(`resolveSegments_single`). All else that looks a field up by its name reads the name as a dotted text, and
so finds the field only if the name has no dot (`resolve_eq_single_iff`): the path of a handle, and the
field that marks deleted rows, both where a draft starts with it and where a borrowed statement is given
one (`handle_finds_field`). -/
namespace DocQuery

variable {schema : Schema} {d : Document} {f : Field}

namespace FieldPath

/-- The path of a field of the document itself. -/
def single (d : Document) (f : Field) : FieldPath where
  root := d
  steps := [⟨d, f⟩]
  nonempty := by simp

theorem resolveSegments_single (hf : d.field? f.name = some f) :
    resolveSegments schema d [f.name] = .ok (single d f) :=
  resolveSegments_ok_iff.mpr ⟨rfl, .last (Document.field?_eq_some_iff.mp hf)⟩

theorem segments_eq_singleton_iff {name : String} : segments name = [name] ↔ '.' ∉ name.toList := by
  constructor
  · intro h
    exact dot_not_mem_segments (h ▸ List.mem_singleton_self name)
  · intro h
    have hsegments := segments_intercalate (List.cons_ne_nil name []) (List.forall_mem_singleton.mpr h)
    rwa [String.intercalate_singleton] at hsegments

/-- Read as a dotted text, the name of a field leads to the field only if it has no dot. -/
theorem resolve_eq_single_iff (hf : d.field? f.name = some f) :
    resolve schema d f.name = .ok (single d f) ↔ '.' ∉ f.name.toList := by
  rw [← segments_eq_singleton_iff]
  constructor
  · intro h
    obtain ⟨-, hleads⟩ := resolveSegments_ok_iff.mp h
    exact hleads.names_eq.symm
  · intro h
    rw [resolve, h]
    exact resolveSegments_single hf

end FieldPath

open FieldPath (single resolve_eq_single_iff)

/-! ### Marks of deleted rows -/

theorem Draft.withDeletedField_single_iff (hf : d.field? f.name = some f) (hdeleted : d.deleted? = some f)
    (command : Command) :
    (∃ draft, Draft.withDeletedField schema d command = .ok draft ∧ draft.deletedField = some (single d f)) ↔
      '.' ∉ f.name.toList := by
  have hresolve : FieldPath.resolve schema d f.name = .ok (single d f) ↔ _ := resolve_eq_single_iff hf
  rw [← hresolve]
  constructor
  · rintro ⟨draft, hdraft, hmark⟩
    obtain ⟨field, path, hfield, hpath, rfl⟩ := withDeletedField_ok hdraft
    obtain rfl := Option.some.inj (hfield.symm.trans hdeleted)
    obtain rfl := Option.some.inj hmark
    exact hpath
  · intro h
    rw [withDeletedField, hdeleted]
    simp only [h]
    exact ⟨_, rfl, rfl⟩

theorem Resolution.markField?_single_iff (hf : d.field? f.name = some f) (hdeleted : d.deleted? = some f) :
    markField? schema d = some (single d f) ↔ '.' ∉ f.name.toList := by
  have hresolve : FieldPath.resolve schema d f.name = .ok (single d f) ↔ _ := resolve_eq_single_iff hf
  rw [← hresolve, markField?, hdeleted, Option.bind_some]
  cases FieldPath.resolve schema d f.name <;> simp [Except.toOption]

/-- A borrowed draft compiles where it does on its own, and the statement is given the mark of its document if the
draft has none. -/
theorem Resolution.compile_marked {r : Resolution} {dialect : Sql.Dialect} {params : ParamSet} {s : Statement}
    (hborrowed : r.isFallback = true) (hmark : r.draft.deletedField = none)
    (h : (r.draft.compile dialect params).result = .ok s) :
    ∃ s', (r.compile dialect params).result = .ok s' ∧
      s'.deletedField = markField? r.draft.schema r.draft.document := by
  refine ⟨r.adapt s, ?_, ?_⟩
  · rw [compile, if_pos hborrowed]
    show (r.draft.compile dialect params).result.map r.adapt = _
    rw [h]
    rfl
  · obtain ⟨plan, containers, filter, bound, -, -, rfl⟩ := Draft.compile_ok h
    show r.draft.deletedField.or _ = _
    rw [hmark, Option.none_or]

/-- **A field is found by its handle**, with the selector whatever its name is, and otherwise just where its name has no
dot: by the path of the handle, and, if the field marks deleted rows, by a draft of a command that needs the mark, and
by the statement of a draft that is borrowed for such a command. -/
theorem handle_finds_field (schema : Schema) (hf : d.field? f.name = some f) :
    (Handle.selector ⟨d, f.name⟩).resolve schema d = .ok (single d f) ∧
    (Handle.path schema ⟨d, f.name⟩ = .ok (single d f) ↔ '.' ∉ f.name.toList) ∧
    (d.deleted? = some f →
      (∀ command, command = .softDelete ∨ command = .restore →
        ((∃ draft, Draft.start schema d command = .ok draft ∧ draft.deletedField = some (single d f)) ↔
          '.' ∉ f.name.toList)) ∧
      ∀ (r : Resolution) (dialect : Sql.Dialect) (params : ParamSet) (s : Statement), r.isFallback = true →
        r.draft.schema = schema → r.draft.document = d → r.draft.deletedField = none →
        (r.draft.compile dialect params).result = .ok s →
        ∃ s', (r.compile dialect params).result = .ok s' ∧
          (s'.deletedField = some (single d f) ↔ '.' ∉ f.name.toList)) := by
  refine ⟨?_, resolve_eq_single_iff hf, fun hdeleted => ⟨fun command hcommand => ?_, ?_⟩⟩
  · have hsame : d.same d = true := beq_self_eq_true d.path
    rw [Handle.selector, Selector.resolve, if_pos hsame]
    exact FieldPath.resolveSegments_single hf
  · rw [← Draft.withDeletedField_single_iff hf hdeleted command]
    rcases hcommand with rfl | rfl <;> rfl
  · rintro r dialect params s hborrowed rfl rfl hmark hcompile
    obtain ⟨s', hs', hdeletedField⟩ := Resolution.compile_marked hborrowed hmark hcompile
    exact ⟨s', hs', by rw [hdeletedField, Resolution.markField?_single_iff hf hdeleted]⟩

/-! Letters with a field that marks those that were sent off. -/

def sentField (name : String) : Field :=
  { name := name, storage := "SentAt", kind := .timestamp, nullable := true, roles := [.deleted] }

def letter (name : String) : Document where
  path := "post.Letter"
  name := "Letter"
  storage := "letters"
  fields := [{ name := "id", storage := "Id", kind := .int, roles := [.identifier] }, sentField name]

/-- Deleting the letter with number 7, borrowed to mark it. -/
def letterSent (name : String) : Resolution where
  draft := (Draft.forDocument [letter name] (letter name) .delete).actAll
    [.edit (.compare .filter "" (.named "id") .equal (.const (.int 7) false)), .freeze]
  requested := .softDelete
  source := .delete

theorem handle_finds_field_letter :
    (letter "sent").field? "sent" = some (sentField "sent") ∧ (letter "sent").deleted? = some (sentField "sent") ∧
      Handle.path [letter "sent"] ⟨letter "sent", "sent"⟩ = .ok (single (letter "sent") (sentField "sent")) ∧
      (∃ draft, Draft.start [letter "sent"] (letter "sent") .restore = .ok draft ∧
        draft.deletedField = some (single (letter "sent") (sentField "sent"))) ∧
      ∃ s, ((letterSent "sent").compile .postgres {}).result = .ok s ∧
        s.deletedField = some (single (letter "sent") (sentField "sent")) := by
  have hf : (letter "sent").field? (sentField "sent").name = some (sentField "sent") := rfl
  have hdots : '.' ∉ (sentField "sent").name.toList := by decide
  obtain ⟨-, hpath, hmarks⟩ := handle_finds_field [letter "sent"] hf
  obtain ⟨hstart, hborrowed⟩ := hmarks rfl
  obtain ⟨s', hs', hmark⟩ := hborrowed (letterSent "sent") .postgres {} _ rfl rfl rfl rfl rfl
  exact ⟨hf, rfl, hpath.mpr hdots, (hstart .restore (.inr rfl)).mpr hdots, s', hs', hmark.mpr hdots⟩

/-- With a dot in its name the field is found by the selector of its handle only. -/
theorem dotted_name_lost :
    (letter "sent.at").field? "sent.at" = some (sentField "sent.at") ∧
      (letter "sent.at").deleted? = some (sentField "sent.at") ∧
      (Handle.selector ⟨letter "sent.at", "sent.at"⟩).resolve [letter "sent.at"] (letter "sent.at") =
        .ok (single (letter "sent.at") (sentField "sent.at")) ∧
      Handle.path [letter "sent.at"] ⟨letter "sent.at", "sent.at"⟩ = .error (.unknownField "post.Letter" "sent") ∧
      (Draft.start [letter "sent.at"] (letter "sent.at") .softDelete).isOk = false ∧
      ∃ s, ((letterSent "sent.at").compile .postgres {}).result = .ok s ∧ s.deletedField = none :=
  ⟨rfl, rfl, rfl, rfl, rfl, _, rfl, rfl⟩

end DocQuery

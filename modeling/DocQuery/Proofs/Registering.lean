import DocQuery.Proofs.Calls
import DocQuery.Proofs.Resolving

/-! Registering drafts and looking them up.

Registering in place comes to what registering as a value comes to, so a call that fails changes
nothing (`register_settles`). After any calls the draft for a document and a command is the first
that was given for both and freezes without error, and that is the only one accepted for both
(`draft?_afterAll`, `accepted_iff`). What a frozen registry gives is said in terms of the accepted
drafts (`registry_exact`). -/
namespace DocQuery

namespace Draft

/-- Freezing ends without error. -/
def freezes (d : Draft) : Bool :=
  d.freeze.result.outcome.isOk

theorem freezes_iff {d : Draft} : d.freezes = true ↔ d.freeze.result.outcome = .ok () := by
  unfold freezes
  cases d.freeze.result.outcome with
  | error e => exact iff_of_false Bool.false_ne_true nofun
  | ok u => exact iff_of_true rfl rfl

/-- The draft is for that document and command. -/
def isFor (d : Draft) (document : String) (command : Command) : Bool :=
  d.document.path == document && d.command == command

theorem isFor_iff {d : Draft} {document : String} {command : Command} :
    d.isFor document command = true ↔ d.document.path = document ∧ d.command = command := by
  rw [isFor, Bool.and_eq_true, beq_iff_eq, beq_iff_eq]

theorem isFor_freeze (d : Draft) (document : String) (command : Command) :
    d.freeze.result.isFor document command = d.isFor document command := by
  rw [isFor, kept_freeze.document, kept_freeze.command, isFor]

end Draft

namespace Registrations

variable {r : Registrations} {document : String} {command : Command} {calls : List Draft} {d : Draft}

/-! ### One call -/

/-- What registering the draft answers, and what is registered then. -/
def registered (r : Registrations) (d : Draft) : Except RegistryError Unit × Registrations :=
  (Registering.draft d).result.run.run r

/-- Enters a frozen draft, as a value. -/
theorem register_result (r : Registrations) (d : Draft) :
    (r.register d).result = match d.freeze.result.outcome with
      | .error e => .error (.draft e)
      | .ok () =>
        if (r.draft? d.document.path d.command).isSome then .error (.duplicateDraft d.document.path d.command)
        else .ok { r with drafts := r.drafts ++ [d.freeze.result] } := by
  rw [← Draft.kept_freeze.document, ← Draft.kept_freeze.command]
  rfl

/-- Registering in place comes to what registering as a value comes to. -/
theorem register_settles (r : Registrations) (d : Draft) :
    r.registered d = match (r.register d).result with
      | .ok r' => (.ok (), r')
      | .error e => (.error e, r) := by
  rw [register_result, ← Draft.kept_freeze.document, ← Draft.kept_freeze.command]
  show (Registering.enter d.freeze.result).run.run r = _
  unfold Registering.enter
  cases d.freeze.result.outcome with
  | error e => rfl
  | ok u =>
    simp only
    show ((if (r.draft? d.freeze.result.document.path d.freeze.result.command).isSome = true then _ else _ :
      Registering Unit).run.run r) = _
    split <;> rfl

/-- What a call answers. -/
theorem answer_registered (r : Registrations) (d : Draft) :
    (r.registered d).1 = match d.freeze.result.outcome with
      | .error e => .error (.draft e)
      | .ok () =>
        if (r.draft? d.document.path d.command).isSome then .error (.duplicateDraft d.document.path d.command)
        else .ok () := by
  rw [register_settles, register_result]
  cases d.freeze.result.outcome with
  | error e => rfl
  | ok u => by_cases hfound : (r.draft? d.document.path d.command).isSome = true <;> simp [hfound]

/-- A call that fails changes nothing. -/
theorem registered_error {e : RegistryError} (h : (r.registered d).1 = .error e) : (r.registered d).2 = r := by
  rw [register_settles] at h ⊢
  cases hresult : (r.register d).result with
  | ok r' =>
    rw [hresult] at h
    exact nomatch h
  | error e => rfl

/-- A call adds its draft for a document and a command that have none. -/
theorem draft?_registered (r : Registrations) (d : Draft) (document : String) (command : Command) :
    (r.registered d).2.draft? document command = (r.draft? document command).or
      (if d.isFor document command && d.freezes then some d.freeze.result else none) := by
  rw [register_settles, register_result]
  cases houtcome : d.freeze.result.outcome with
  | error e =>
    have hfails : d.freezes = false := by rw [Draft.freezes, houtcome]; rfl
    simp [hfails]
  | ok u =>
    have hfreezes : d.freezes = true := Draft.freezes_iff.mpr houtcome
    rw [hfreezes, Bool.and_true]
    by_cases hfound : (r.draft? d.document.path d.command).isSome = true
    · rw [if_pos hfound]
      show r.draft? document command = _
      split
      · next hfor =>
        obtain ⟨rfl, rfl⟩ := Draft.isFor_iff.mp hfor
        obtain ⟨d', hd'⟩ := Option.isSome_iff_exists.mp hfound
        rw [hd', Option.some_or]
      · exact Option.or_none.symm
    · rw [if_neg hfound]
      show (r.drafts ++ [d.freeze.result]).find? (fun d => d.isFor document command) = _
      rw [List.find?_append, List.find?_singleton, Draft.isFor_freeze]
      rfl

/-! ### All calls -/

/-- What is registered once all drafts were given. -/
def afterAll (r : Registrations) : List Draft → Registrations
  | [] => r
  | d :: rest => afterAll (r.registered d).2 rest

/-- The first of the drafts that is for the document and the command and freezes. -/
def firstFor? (calls : List Draft) (document : String) (command : Command) : Option Draft :=
  calls.find? fun d => d.isFor document command && d.freezes

/-- After all calls the draft for a document and a command is the first given that freezes, unless there was one. -/
theorem draft?_afterAll (r : Registrations) (calls : List Draft) (document : String) (command : Command) :
    (r.afterAll calls).draft? document command = (r.draft? document command).or
      ((firstFor? calls document command).map fun d => d.freeze.result) := by
  induction calls generalizing r with
  | nil => exact Option.or_none.symm
  | cons d rest ih =>
    rw [afterAll, ih, draft?_registered, Option.or_assoc, firstFor?, firstFor?, List.find?_cons]
    cases (d.isFor document command && d.freezes) <;> rfl

theorem draft?_made (calls : List Draft) (document : String) (command : Command) :
    (afterAll {} calls).draft? document command =
      (firstFor? calls document command).map fun d => d.freeze.result := by
  rw [draft?_afterAll]
  exact Option.none_or

theorem compositions_registered (r : Registrations) (d : Draft) :
    (r.registered d).2.compositions = r.compositions := by
  cases hanswer : (r.registered d).1 with
  | error e => rw [registered_error hanswer]
  | ok u =>
    rw [register_settles, register_result] at hanswer ⊢
    cases hresult : d.freeze.result.outcome with
    | error e => rfl
    | ok u => by_cases hfound : (r.draft? d.document.path d.command).isSome = true <;> simp [hfound]

theorem compositions_afterAll (r : Registrations) (calls : List Draft) :
    (r.afterAll calls).compositions = r.compositions := by
  induction calls generalizing r with
  | nil => rfl
  | cons d rest ih => rw [afterAll, ih, compositions_registered]

/-! ### Accepted drafts -/

/-- One of the calls for the document and the command was answered without error, and left the draft. -/
def Accepted (calls : List Draft) (document : String) (command : Command) (d : Draft) : Prop :=
  ∃ before given after, calls = before ++ given :: after ∧
    given.document.path = document ∧ given.command = command ∧
    ((afterAll {} before).registered given).1 = .ok () ∧ d = given.freeze.result

theorem answer_ok_iff : (r.registered d).1 = .ok () ↔
    d.freezes = true ∧ r.draft? d.document.path d.command = none := by
  rw [answer_registered, Draft.freezes_iff]
  cases d.freeze.result.outcome with
  | error e => simp
  | ok u => cases r.draft? d.document.path d.command <;> simp

theorem draft?_eq_none_iff : (afterAll {} calls).draft? document command = none ↔
    ∀ d ∈ calls, d.isFor document command = true → d.freezes = false := by
  rw [draft?_made, Option.map_eq_none_iff, firstFor?, List.find?_eq_none]
  simp

/-- The draft that is found is the accepted one. -/
theorem draft?_eq_some_iff : (afterAll {} calls).draft? document command = some d ↔
    Accepted calls document command d := by
  rw [draft?_made, Option.map_eq_some_iff]
  constructor
  · rintro ⟨given, hfirst, rfl⟩
    obtain ⟨hgiven, before, after, rfl, hbefore⟩ := List.find?_eq_some_iff_append.mp hfirst
    obtain ⟨hfor, hfreezes⟩ := Bool.and_eq_true_iff.mp hgiven
    obtain ⟨rfl, rfl⟩ := Draft.isFor_iff.mp hfor
    refine ⟨before, given, after, rfl, rfl, rfl, answer_ok_iff.mpr ⟨hfreezes, ?_⟩, rfl⟩
    refine draft?_eq_none_iff.mpr fun d hd hfor => ?_
    simpa [hfor] using hbefore d hd
  · rintro ⟨before, given, after, rfl, rfl, rfl, hanswer, rfl⟩
    obtain ⟨hfreezes, hnone⟩ := answer_ok_iff.mp hanswer
    refine ⟨given, List.find?_eq_some_iff_append.mpr ⟨?_, before, after, rfl, fun d hd => ?_⟩, rfl⟩
    · exact Bool.and_eq_true_iff.mpr ⟨Draft.isFor_iff.mpr ⟨rfl, rfl⟩, hfreezes⟩
    · cases hfor : d.isFor given.document.path given.command with
      | false => rfl
      | true => simp [draft?_eq_none_iff.mp hnone d hd hfor]

/-- An accepted draft was frozen without error. -/
theorem Accepted.plan (h : Accepted calls document command d) : ∃ plan, d.plan = some (.ok plan) := by
  obtain ⟨before, given, after, -, -, -, hanswer, rfl⟩ := h
  exact Draft.plan_of_outcome (Draft.freezes_iff.mp (answer_ok_iff.mp hanswer).1)

/-- What the call for a draft answers after other calls. -/
inductive Answered (calls : List Draft) (d : Draft) : Except RegistryError Unit → Prop where
  | unsound {e : DraftError} (failed : d.freeze.result.outcome = .error e) : Answered calls d (.error (.draft e))
  | duplicate {d' : Draft} (sound : d.freeze.result.outcome = .ok ())
    (earlier : Accepted calls d.document.path d.command d') :
    Answered calls d (.error (.duplicateDraft d.document.path d.command))
  | accepted (sound : d.freeze.result.outcome = .ok ())
    (first : ∀ d', ¬ Accepted calls d.document.path d.command d') : Answered calls d (.ok ())

theorem answered (calls : List Draft) (d : Draft) : Answered calls d ((afterAll {} calls).registered d).1 := by
  rw [answer_registered]
  cases houtcome : d.freeze.result.outcome with
  | error e => exact .unsound houtcome
  | ok u =>
    simp only
    cases hdraft : (afterAll {} calls).draft? d.document.path d.command with
    | some d' => exact .duplicate houtcome (draft?_eq_some_iff.mp hdraft)
    | none =>
      refine .accepted houtcome fun d' haccepted => ?_
      exact nomatch hdraft.symm.trans (draft?_eq_some_iff.mpr haccepted)

theorem none_accepted_iff : (∀ d, ¬ Accepted calls document command d) ↔
    (afterAll {} calls).draft? document command = none := by
  simp only [← draft?_eq_some_iff]
  exact Option.eq_none_iff_forall_not_mem.symm

/-! ### What a registry gives -/

/-- What a registry gives that was frozen after the calls. -/
structure Gives (reg : Registry) (calls : List Draft) : Prop where
  /-- A command resolves just when a draft was accepted for it or for one of its own fallbacks. -/
  resolves : ∀ document command, (reg.resolve document command).isSome = true ↔
    ∃ source ∈ command :: command.fallbacks, ∃ d, Accepted calls document source d
  /-- It resolves to the draft for the first of these that has one. -/
  first : ∀ document command resolution, reg.resolve document command = some resolution ↔
    resolution.requested = command ∧ Accepted calls document resolution.source resolution.draft ∧
      ∃ before after, command :: command.fallbacks = before ++ resolution.source :: after ∧
        ∀ earlier ∈ before, ∀ d, ¬ Accepted calls document earlier d
  /-- No fallback stands in for the draft of exactly one command. -/
  own : ∀ document command d, reg.draft? document command = some d ↔ Accepted calls document command d
  listed : ∀ path, path ∈ reg.documents ↔ ∃ command d, Accepted calls path command d
  sorted : reg.documents.Pairwise (· < ·)

theorem gives_freeze (calls : List Draft) : Gives (afterAll {} calls).freeze calls := by
  refine ⟨fun document command => ?_, fun document command resolution => ?_, fun document command d => ?_,
    fun path => ?_, ?_⟩
  · rw [resolve_freeze, ← Option.ne_none_iff_isSome, Ne, firstOf?_eq_none_iff]
    simp only [← none_accepted_iff, not_forall, not_not, exists_prop]
  · rw [resolve_freeze, firstOf?_eq_some_iff, draft?_eq_some_iff]
    simp only [none_accepted_iff]
  · rw [draft?_freeze, draft?_eq_some_iff]
  · rw [documents_freeze, mem_documents_iff_draft?]
    simp only [draft?_eq_some_iff]
  · rw [documents_freeze]
    exact documents_sorted _

/-- Drafts may come in another order, if those for one document and command come in the same. -/
theorem freeze_afterAll_congr {calls' : List Draft}
    (h : ∀ document command, calls'.filter (fun d => d.isFor document command) =
      calls.filter fun d => d.isFor document command) :
    (afterAll {} calls').freeze = (afterAll {} calls).freeze := by
  refine freeze_congr (fun document command => ?_) ?_
  · have hfilter (calls : List Draft) : firstFor? calls document command =
        (calls.filter fun d => d.isFor document command).find? Draft.freezes := by
      simp [firstFor?, List.find?_filter]
    rw [draft?_made, draft?_made, hfilter, hfilter, h]
  · rw [compositions_afterAll, compositions_afterAll]

/-- **A registry resolves exactly what was registered.** A command resolves to the draft accepted for it, or else for
the first of its own fallbacks that has one; for each document and command only one draft was accepted, the first
that froze without error. A call that fails changes nothing, and the order of drafts for different documents or
commands does not matter. -/
theorem registry_exact (calls : List Draft) :
    Gives (afterAll {} calls).freeze calls ∧
    (∀ document command d, Accepted calls document command d →
      (∃ plan, d.plan = some (.ok plan)) ∧ ∀ d', Accepted calls document command d' → d' = d) ∧
    (∀ d, Answered calls d ((afterAll {} calls).registered d).1) ∧
    (∀ d e, ((afterAll {} calls).registered d).1 = .error e →
      ((afterAll {} calls).registered d).2 = afterAll {} calls) ∧
    (∀ calls' : List Draft,
      (∀ document command, calls'.filter (fun d => d.isFor document command) =
        calls.filter fun d => d.isFor document command) →
      (afterAll {} calls').freeze = (afterAll {} calls).freeze) := by
  refine ⟨gives_freeze calls, fun document command d haccepted => ⟨haccepted.plan, fun d' haccepted' => ?_⟩,
    answered calls, fun d e => registered_error, fun calls' => freeze_afterAll_congr⟩
  rw [← draft?_eq_some_iff] at haccepted haccepted'
  exact Option.some.inj (haccepted'.symm.trans haccepted)

/-! A deletion is accepted and another one refused, an update without a filter is refused too, and a draft for another
document stands between them. Marking a row as deleted borrows the deletion; taking the mark away borrows nothing. -/

def folder (path : String) : Document where
  path := path
  name := "Folder"
  storage := "folders"
  fields := [{ name := "id", storage := "Id", kind := .int, roles := [.identifier] }]

def folderDraft (path : String) (command : Command) (ids : List Int64) : Draft :=
  (Draft.forDocument [folder path] (folder path) command).editAll
    (ids.map fun id => .compare .filter "" (.named "id") .equal (.const (.int id) false))

def folderCalls : List Draft :=
  [folderDraft "desk.Folder" .update [], folderDraft "desk.Folder" .delete [7],
    folderDraft "desk.Drawer" .select [], folderDraft "desk.Folder" .delete [8]]

/-- The same with the draft for the other document first. -/
def drawerFirst : List Draft :=
  [folderDraft "desk.Drawer" .select [], folderDraft "desk.Folder" .update [],
    folderDraft "desk.Folder" .delete [7], folderDraft "desk.Folder" .delete [8]]

theorem registry_exact_folders :
    Accepted folderCalls "desk.Folder" .delete (folderDraft "desk.Folder" .delete [7]).freeze.result ∧
    (afterAll {} folderCalls).freeze.resolve "desk.Folder" .softDelete =
      some ⟨(folderDraft "desk.Folder" .delete [7]).freeze.result, .softDelete, .delete⟩ ∧
    ((afterAll {} folderCalls).freeze.resolve "desk.Folder" .restore).isSome = false ∧
    "desk.Drawer" ∈ (afterAll {} folderCalls).freeze.documents ∧
    ((afterAll {} folderCalls).registered (folderDraft "desk.Folder" .delete [8])).1 =
      .error (.duplicateDraft "desk.Folder" .delete) ∧
    ((afterAll {} folderCalls).registered (folderDraft "desk.Folder" .delete [8])).2 = afterAll {} folderCalls ∧
    (∀ document command, drawerFirst.filter (fun d => d.isFor document command) =
      folderCalls.filter fun d => d.isFor document command) ∧
    (afterAll {} drawerFirst).freeze = (afterAll {} folderCalls).freeze := by
  obtain ⟨hgives, -, -, hfailed, horder⟩ := registry_exact folderCalls
  have haccepted : Accepted folderCalls "desk.Folder" .delete
      (folderDraft "desk.Folder" .delete [7]).freeze.result := draft?_eq_some_iff.mp rfl
  have hnone (command : Command) (h : (afterAll {} folderCalls).draft? "desk.Folder" command = none) :
      ∀ d, ¬ Accepted folderCalls "desk.Folder" command d := none_accepted_iff.mpr h
  have hdrawer : ∀ document command, drawerFirst.filter (fun d => d.isFor document command) =
      folderCalls.filter fun d => d.isFor document command := by
    intro document command
    cases hdrawer : (folderDraft "desk.Drawer" .select []).isFor document command with
    | false => simp [drawerFirst, folderCalls, List.filter_cons, hdrawer]
    | true =>
      obtain ⟨rfl, rfl⟩ := Draft.isFor_iff.mp hdrawer
      rfl
  refine ⟨haccepted, ?_, ?_, ?_, rfl, hfailed _ _ rfl, hdrawer, horder _ hdrawer⟩
  · refine (hgives.first _ _ _).mpr ⟨rfl, haccepted, [.softDelete], [.update], rfl, ?_⟩
    exact List.forall_mem_singleton.mpr (hnone .softDelete rfl)
  · refine Bool.eq_false_iff.mpr fun hsome => ?_
    obtain ⟨source, hsource, d, hd⟩ := (hgives.resolves _ _).mp hsome
    have hsources : source = .restore ∨ source = .softDelete ∨ source = .update := by
      simpa [Command.fallbacks] using hsource
    rcases hsources with rfl | rfl | rfl
    · exact hnone .restore rfl d hd
    · exact hnone .softDelete rfl d hd
    · exact hnone .update rfl d hd
  · exact (hgives.listed _).mpr ⟨.select, _, draft?_eq_some_iff.mp rfl⟩

end Registrations

end DocQuery

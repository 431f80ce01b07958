import DocQuery.Metrics.Counters
import Mathlib.Algebra.BigOperators.Group.List.Basic
import Mathlib.Algebra.GroupWithZero.Nat
import Mathlib.Data.List.Nodup

/-! What the metrics say of the events.

A counter holds the number of the events that are counted in it, over all and for each document,
while these are fewer than a counter can hold (`Tells.record`). The documents are kept in order, so
that each stands there once and its counters are found (`counters_countIn`). What the report says
follows (`Tells.reports`). -/
namespace DocQuery

/-! ### Counters -/

/-- What the counters count. -/
inductive Tally where
  | frozen
  | freezeFailed
  | compiled
  | compileFailed
  | composed
  deriving DecidableEq

/-- The counter that an event is counted in. -/
def Event.tally : Event → Tally
  | frozen _ true => .frozen
  | frozen _ false => .freezeFailed
  | compiled _ true => .compiled
  | compiled _ false => .compileFailed
  | composed _ => .composed

/-- The event is about the document and counted in the counter. -/
def Event.isFor (e : Event) (document : String) (t : Tally) : Bool :=
  e.document == document && e.tally == t

/-- The events of a document that are counted in one counter are all the same. -/
def Tally.event (document : String) : Tally → Event
  | .frozen => .frozen document true
  | .freezeFailed => .frozen document false
  | .compiled => .compiled document true
  | .compileFailed => .compiled document false
  | .composed => .composed document

theorem Event.isFor_eq (e : Event) (document : String) (t : Tally) : e.isFor document t = (e == t.event document) := by
  rcases e with ⟨_, _ | _⟩ | ⟨_, _ | _⟩ | _ <;> cases t <;> rw [Bool.eq_iff_iff] <;>
    simp [Event.isFor, Event.document, Event.tally, Tally.event]

namespace Counters

def get (c : Counters) : Tally → UInt64
  | .frozen => c.frozen
  | .freezeFailed => c.freezeFailed
  | .compiled => c.compiled
  | .compileFailed => c.compileFailed
  | .composed => c.composed

theorem get_zero (t : Tally) : ({} : Counters).get t = 0 := by
  cases t <;> rfl

/-- Counting an event changes its counter only. -/
theorem get_count (c : Counters) (e : Event) (t : Tally) :
    (c.count e).get t = if e.tally = t then oneMore (c.get t) else c.get t := by
  rcases e with ⟨_, _ | _⟩ | ⟨_, _ | _⟩ | _ <;> cases t <;> rfl

theorem toNat_oneMore {n : UInt64} (h : n.toNat + 1 < UInt64.size) : (oneMore n).toNat = n.toNat + 1 := by
  have hnext : (n + 1).toNat = n.toNat + 1 := by
    rw [UInt64.toNat_add]
    exact Nat.mod_eq_of_lt h
  have hne : n + 1 ≠ 0 := fun hzero => by
    rw [hzero] at hnext
    exact absurd hnext (Nat.succ_ne_zero _).symm
  rw [oneMore, if_neg hne, hnext]

theorem toNat_get_count {c : Counters} {e : Event} {t : Tally} (h : (c.get t).toNat + 1 < UInt64.size) :
    ((c.count e).get t).toNat = (c.get t).toNat + if e.tally = t then 1 else 0 := by
  rw [get_count]
  split
  · exact toNat_oneMore h
  · rfl

end Counters

/-! ### Documents in order -/

namespace Metrics

variable {m : Metrics} {e : Event} {events : List Event} {docs : List (String × Counters)}

/-- The paths are in order, none twice. -/
def Ordered (docs : List (String × Counters)) : Prop :=
  docs.Pairwise fun a b => a.1 < b.1

/-- The counters under a path, at zero if there are none. -/
def counters (docs : List (String × Counters)) (document : String) : Counters :=
  (docs.lookup document).getD {}

def ofDocument (m : Metrics) (document : String) : Counters :=
  counters m.documents document

theorem counters_cons (path : String) (c : Counters) (rest : List (String × Counters)) (document : String) :
    counters ((path, c) :: rest) document = if document = path then c else counters rest document := by
  unfold counters
  rw [List.lookup_cons]
  by_cases h : document = path
  · simp [h]
  · rw [if_neg h, beq_false_of_ne h]

theorem counters_of_not_mem {document : String} (h : document ∉ docs.map Prod.fst) : counters docs document = {} := by
  induction docs with
  | nil => rfl
  | cons head rest ih =>
    rw [List.map_cons, List.mem_cons, not_or] at h
    rw [counters_cons, if_neg h.1, ih h.2]

theorem mem_countIn {document : String} :
    document ∈ (countIn e docs).map Prod.fst ↔ document = e.document ∨ document ∈ docs.map Prod.fst := by
  induction docs with
  | nil => simp [countIn]
  | cons head rest ih =>
    obtain ⟨path, c⟩ := head
    unfold countIn
    split
    · next hsame => simp [hsame]
    · split
      · simp
      · simp only [List.map_cons, List.mem_cons, ih]
        exact or_left_comm

theorem ordered_countIn (h : Ordered docs) : Ordered (countIn e docs) := by
  induction docs with
  | nil => exact List.pairwise_singleton _ _
  | cons head rest ih =>
    obtain ⟨path, c⟩ := head
    obtain ⟨hfirst, hrest⟩ := List.pairwise_cons.mp h
    unfold countIn
    split
    · exact List.pairwise_cons.mpr ⟨hfirst, hrest⟩
    · next hother =>
      split
      · next hbefore =>
        refine List.pairwise_cons.mpr ⟨fun entry hentry => ?_, h⟩
        rcases List.mem_cons.mp hentry with rfl | hentry
        · exact hbefore
        · exact Std.lt_trans hbefore (hfirst entry hentry)
      · next hafter =>
        refine List.pairwise_cons.mpr ⟨fun entry hentry => ?_, ih hrest⟩
        have hlt : path < e.document := Std.lt_of_le_of_ne (String.not_lt.mp hafter) (Ne.symm hother)
        rcases mem_countIn.mp (List.mem_map_of_mem hentry) with hnew | hold
        · exact hnew ▸ hlt
        · obtain ⟨old, hold, hpath⟩ := List.mem_map.mp hold
          exact hpath ▸ hfirst old hold

/-- The path stands before all others, so it is none of them. -/
theorem not_mem_of_lt {document path : String} {c : Counters} {rest : List (String × Counters)}
    (h : Ordered ((path, c) :: rest)) (hlt : document < path) : document ∉ ((path, c) :: rest).map Prod.fst := by
  intro hmem
  obtain ⟨entry, hentry, rfl⟩ := List.mem_map.mp hmem
  rcases List.mem_cons.mp hentry with rfl | hentry
  · exact Std.lt_irrefl hlt
  · exact Std.lt_irrefl (Std.lt_trans hlt ((List.pairwise_cons.mp h).1 entry hentry))

/-- An event is counted for its document and for no other. -/
theorem counters_countIn (h : Ordered docs) (document : String) :
    counters (countIn e docs) document =
      if e.document = document then (counters docs document).count e else counters docs document := by
  induction docs with
  | nil =>
    rw [countIn, counters_cons]
    by_cases hd : document = e.document <;> simp [hd, counters, eq_comm]
  | cons head rest ih =>
    obtain ⟨path, c⟩ := head
    unfold countIn
    split
    · next hsame =>
      subst hsame
      rw [counters_cons, counters_cons]
      by_cases hd : document = e.document
      · rw [if_pos hd, if_pos hd, if_pos hd.symm]
      · rw [if_neg hd, if_neg hd, if_neg (Ne.symm hd)]
    · next hother =>
      split
      · next hbefore =>
        rw [counters_cons]
        by_cases hd : document = e.document
        · rw [if_pos hd, if_pos hd.symm, hd, counters_of_not_mem (not_mem_of_lt h hbefore)]
        · rw [if_neg hd, if_neg (Ne.symm hd)]
      · rw [counters_cons, counters_cons, ih (List.pairwise_cons.mp h).2]
        by_cases hd : document = path
        · rw [if_pos hd, if_pos hd, if_neg (hd ▸ hother)]
        · rw [if_neg hd, if_neg hd]

theorem counters_of_mem (h : Ordered docs) {document : String} {c : Counters} (hmem : (document, c) ∈ docs) :
    counters docs document = c := by
  induction docs with
  | nil => exact nomatch hmem
  | cons head rest ih =>
    obtain ⟨path, c'⟩ := head
    obtain ⟨hfirst, hrest⟩ := List.pairwise_cons.mp h
    rw [counters_cons]
    rcases List.mem_cons.mp hmem with hhead | hmem
    · obtain ⟨rfl, rfl⟩ := Prod.mk.inj hhead
      exact if_pos rfl
    · have hne : document ≠ path := fun heq => Std.lt_irrefl (heq ▸ hfirst _ hmem)
      rw [if_neg hne, ih hrest hmem]

/-! ### All events -/

/-- What the metrics hold is what the events come to. -/
structure Tells (m : Metrics) (events : List Event) : Prop where
  ordered : Ordered m.documents
  total : ∀ t, (m.total.get t).toNat = events.countP fun e => e.tally == t
  document : ∀ path t, ((m.ofDocument path).get t).toNat = events.countP fun e => e.isFor path t
  listed : ∀ path, path ∈ m.documents.map Prod.fst ↔ ∃ e ∈ events, e.document = path

theorem tells_nil : Tells {} [] where
  ordered := .nil
  total t := by
    rw [Counters.get_zero]
    rfl
  document path t := by
    show (({} : Counters).get t).toNat = 0
    rw [Counters.get_zero]
    rfl
  listed path := by simp

/-- One more event, while a counter can hold as many. -/
theorem Tells.record (h : Tells m events) (hfew : events.length + 1 < UInt64.size) :
    Tells (m.record e) (events ++ [e]) where
  ordered := ordered_countIn h.ordered
  total t := by
    have hroom : (m.total.get t).toNat + 1 < UInt64.size := by
      rw [h.total]
      exact Nat.lt_of_le_of_lt (Nat.succ_le_succ List.countP_le_length) hfew
    show ((m.total.count e).get t).toNat = _
    rw [Counters.toNat_get_count hroom, h.total, List.countP_append, List.countP_singleton]
    simp only [beq_iff_eq]
  document path t := by
    have hroom : ((m.ofDocument path).get t).toNat + 1 < UInt64.size := by
      rw [h.document]
      exact Nat.lt_of_le_of_lt (Nat.succ_le_succ List.countP_le_length) hfew
    have hrecord : (m.record e).ofDocument path =
        if e.document = path then (m.ofDocument path).count e else m.ofDocument path :=
      counters_countIn h.ordered path
    rw [hrecord, List.countP_append, List.countP_singleton, ← h.document]
    by_cases hd : e.document = path
    · rw [if_pos hd, Counters.toNat_get_count hroom]
      simp [Event.isFor, hd]
    · rw [if_neg hd]
      simp [Event.isFor, hd]
  listed path := by
    have hmem : path ∈ (m.record e).documents.map Prod.fst ↔ path = e.document ∨ path ∈ m.documents.map Prod.fst :=
      mem_countIn
    rw [hmem, h.listed]
    simp only [List.mem_append, List.mem_singleton, or_and_right, exists_or, exists_eq_left]
    rw [or_comm, eq_comm]

theorem Tells.recordAll {before : List Event} (h : Tells m before)
    (hfew : (before ++ events).length < UInt64.size) : Tells (m.recordAll events) (before ++ events) := by
  induction events generalizing m before with
  | nil => rwa [List.append_nil]
  | cons e rest ih =>
    rw [List.append_cons] at hfew ⊢
    refine ih (h.record ?_) hfew
    rw [List.length_append, List.length_append, List.length_singleton] at hfew
    omega

/-! ### The report -/

/-- What the report of the metrics says when so much is to be counted for each document. -/
structure Reports (m : Metrics) (count : String → Tally → Nat) : Prop where
  document : ∀ path t, ((m.ofDocument path).get t).toNat = count path t
  /-- What is counted over all is what is counted for the documents together. -/
  total : ∀ t, (m.total.get t).toNat = (m.report.map fun entry => (entry.2.get t).toNat).sum
  /-- Just the documents for which something was counted are listed, with their counters. -/
  listed : ∀ path c, (path, c) ∈ m.report ↔ c = m.ofDocument path ∧ ∃ t, count path t ≠ 0
  once : (m.report.map Prod.fst).Nodup
  sorted : m.report.Pairwise fun a b =>
    b.2.compiled < a.2.compiled ∨ a.2.compiled = b.2.compiled ∧ a.1 < b.1

/-- An event is for as many of the paths as are that of its document. -/
theorem sum_isFor_self (e : Event) (t : Tally) (paths : List String) :
    (paths.map fun path => if e.isFor path t = true then 1 else 0).sum =
      if (e.tally == t) = true then paths.count e.document else 0 := by
  induction paths with
  | nil => simp
  | cons path rest ih =>
    rw [List.map_cons, List.sum_cons, ih, List.count_cons]
    unfold Event.isFor
    cases e.tally == t with
    | false => simp
    | true =>
      rw [Bool.and_true, if_pos rfl, if_pos rfl, Nat.add_comm, BEq.comm]

/-- Every event is about one of the documents. -/
theorem sum_isFor {paths : List String} (hnodup : paths.Nodup) (hmem : ∀ e ∈ events, e.document ∈ paths) (t : Tally) :
    (paths.map fun path => events.countP fun e => e.isFor path t).sum = events.countP fun e => e.tally == t := by
  induction events with
  | nil => simp
  | cons e rest ih =>
    obtain ⟨he, hrest⟩ := List.forall_mem_cons.mp hmem
    have honce : paths.count e.document = 1 := List.count_eq_one_of_mem hnodup he
    simp only [List.countP_cons, List.sum_map_add, ih hrest, sum_isFor_self, honce]

theorem nodup_of_ordered (h : Ordered docs) : (docs.map Prod.fst).Nodup := by
  refine List.pairwise_map.mpr (h.imp fun {a b} hlt heq => ?_)
  rw [heq] at hlt
  exact Std.lt_irrefl hlt

theorem precedes_iff {a b : String × Counters} : precedes a b = true ↔
    b.2.compiled < a.2.compiled ∨ a.2.compiled = b.2.compiled ∧ a.1 ≤ b.1 := by
  simp [precedes]

theorem precedes_trans (a b c : String × Counters) (hab : precedes a b = true) (hbc : precedes b c = true) :
    precedes a c = true := by
  rw [precedes_iff] at hab hbc ⊢
  rcases hab with hab | ⟨hab, hpath⟩ <;> rcases hbc with hbc | ⟨hbc, hpath'⟩
  · exact .inl (Std.lt_trans hbc hab)
  · exact .inl (hbc ▸ hab)
  · exact .inl (hab ▸ hbc)
  · exact .inr ⟨hab.trans hbc, String.le_trans hpath hpath'⟩

theorem precedes_total (a b : String × Counters) : (precedes a b || precedes b a) = true := by
  rw [Bool.or_eq_true, precedes_iff, precedes_iff]
  by_cases heq : a.2.compiled = b.2.compiled
  · rcases String.le_total a.1 b.1 with hle | hle
    · exact .inl (.inr ⟨heq, hle⟩)
    · exact .inr (.inr ⟨heq.symm, hle⟩)
  · rcases UInt64.lt_or_lt_of_ne heq with hlt | hlt
    · exact .inr (.inl hlt)
    · exact .inl (.inl hlt)

theorem mem_report {path : String} {c : Counters} (h : Ordered m.documents) :
    (path, c) ∈ m.report ↔ c = m.ofDocument path ∧ path ∈ m.documents.map Prod.fst := by
  rw [report, List.mem_mergeSort]
  constructor
  · intro hmem
    exact ⟨(counters_of_mem h hmem).symm, List.mem_map_of_mem hmem⟩
  · rintro ⟨rfl, hpath⟩
    obtain ⟨⟨_, c⟩, hmem, rfl⟩ := List.mem_map.mp hpath
    rwa [ofDocument, counters_of_mem h hmem]

theorem sorted_report (h : Ordered m.documents) :
    m.report.Pairwise fun a b => b.2.compiled < a.2.compiled ∨ a.2.compiled = b.2.compiled ∧ a.1 < b.1 := by
  have hperm : m.report.Perm m.documents := List.mergeSort_perm _ _
  have hnodup : (m.report.map Prod.fst).Nodup := (hperm.map Prod.fst).nodup_iff.mpr (nodup_of_ordered h)
  have hpairwise := List.pairwise_mergeSort precedes_trans precedes_total m.documents
  refine (hpairwise.and (List.pairwise_map.mp hnodup)).imp ?_
  rintro a b ⟨hprecedes, hne⟩
  rcases precedes_iff.mp hprecedes with hlt | ⟨heq, hle⟩
  · exact .inl hlt
  · exact .inr ⟨heq, Std.lt_of_le_of_ne hle hne⟩

/-- The report of what the events come to says how many there were of each kind. -/
theorem Tells.reports (h : Tells m events) :
    m.Reports fun path t => events.countP fun e => e.isFor path t where
  document := h.document
  total t := by
    have hperm : m.report.Perm m.documents := List.mergeSort_perm _ _
    have hcounts : m.documents.map (fun entry => (entry.2.get t).toNat) =
        (m.documents.map Prod.fst).map fun path => events.countP fun e => e.isFor path t := by
      rw [List.map_map]
      refine List.map_congr_left fun entry hentry => ?_
      rw [Function.comp_apply, ← h.document, ofDocument, counters_of_mem h.ordered hentry]
    rw [(hperm.map _).sum_eq, hcounts, h.total]
    exact (sum_isFor (nodup_of_ordered h.ordered) (fun e he => (h.listed _).mpr ⟨e, he, rfl⟩) t).symm
  listed path c := by
    rw [mem_report h.ordered, h.listed]
    refine and_congr_right fun _ => ?_
    simp only [← Nat.pos_iff_ne_zero, List.countP_pos_iff, Event.isFor, Bool.and_eq_true, beq_iff_eq]
    exact ⟨fun ⟨e, he, hpath⟩ => ⟨e.tally, e, he, hpath, rfl⟩, fun ⟨_, e, he, hpath, _⟩ => ⟨e, he, hpath⟩⟩
  once := ((List.mergeSort_perm _ _).map Prod.fst).nodup_iff.mpr (nodup_of_ordered h.ordered)
  sorted := sorted_report h.ordered

end Metrics

end DocQuery

import Mathlib.Data.List.Forall2

/-! Computations that may fail.

A step after another is reached if the first succeeds (`bind_ok`, `bind_error`). Steps for all elements of a
list give results that stand beside the elements (`mapM_ok`), or they fail at the first element whose step
fails, with its error (`mapM_error_iff`). -/
namespace DocQuery

variable {ε α β γ : Type}

/-! ### One after another -/

theorem bind_ok {x : Except ε α} {f : α → Except ε β} {b : β} (h : x >>= f = .ok b) :
    ∃ a, x = .ok a ∧ f a = .ok b := by
  cases x with
  | error e => exact nomatch h
  | ok a => exact ⟨a, rfl, h⟩

theorem bind_error {x : Except ε α} {f : α → Except ε β} {e : ε} (h : x >>= f = .error e) :
    x = .error e ∨ ∃ a, x = .ok a ∧ f a = .error e := by
  cases x with
  | error e' => exact .inl (congrArg Except.error (Except.error.inj h))
  | ok a => exact .inr ⟨a, rfl, h⟩

/-! ### Other results and other errors -/

theorem map_eq_error {f : α → β} {x : Except ε α} {e : ε} : x.map f = .error e ↔ x = .error e := by
  cases x with
  | ok a => exact ⟨(fun h => nomatch h), (fun h => nomatch h)⟩
  | error e' => rw [Except.map, Except.error.injEq, Except.error.injEq]

theorem map_eq_ok {f : α → β} {x : Except ε α} {b : β} : x.map f = .ok b ↔ ∃ a, x = .ok a ∧ f a = b := by
  cases x with
  | error e => exact ⟨(fun h => nomatch h), fun ⟨_, h, _⟩ => nomatch h⟩
  | ok a =>
    rw [Except.map, Except.ok.injEq]
    exact ⟨fun h => ⟨a, rfl, h⟩, fun ⟨_, ha, h⟩ => Except.ok.inj ha ▸ h⟩

theorem map_map_except (f : α → β) (g : β → γ) (x : Except ε α) :
    Except.map g (Except.map f x) = Except.map (g ∘ f) x := by
  cases x <;> rfl

/-- What has no error after a change had none before it. -/
theorem eq_map_ok {f : α → β} {results : List (Except ε α)} {bs : List β}
    (h : results.map (Except.map f) = bs.map .ok) : ∃ as : List α, results = as.map .ok ∧ bs = as.map f := by
  induction results generalizing bs with
  | nil => exact ⟨[], rfl, List.map_eq_nil_iff.mp h.symm⟩
  | cons result rest ih =>
    cases bs with
    | nil => exact nomatch h
    | cons b bs =>
      obtain ⟨hfirst, hrest⟩ := List.cons.inj h
      obtain ⟨as, rfl, rfl⟩ := ih hrest
      cases result with
      | error e => exact nomatch hfirst
      | ok a =>
        obtain rfl := Except.ok.inj hfirst
        exact ⟨a :: as, rfl, rfl⟩

theorem mapError_ok {ε' : Type} {f : ε → ε'} {x : Except ε α} {a : α} (h : x.mapError f = .ok a) : x = .ok a := by
  cases x with
  | error e => exact nomatch h
  | ok b => exact congrArg Except.ok (Except.ok.inj h)

theorem mapError_error {ε' : Type} {f : ε → ε'} {x : Except ε α} {e : ε'} (h : x.mapError f = .error e) :
    ∃ e', x = .error e' ∧ e = f e' := by
  cases x with
  | error e' => exact ⟨e', rfl, (Except.error.inj h).symm⟩
  | ok a => exact nomatch h

theorem mapError_bind {ε' : Type} (g : ε → ε') (x : Except ε α) (f : α → Except ε β) :
    (x >>= f).mapError g = x.mapError g >>= fun a => (f a).mapError g := by
  cases x <;> rfl

/-! ### Steps for the elements of a list -/

/-- Errors that the steps do not give need not be looked at. -/
theorem mapError_mapM {g : ε → ε} {f : α → Except ε β} (hf : ∀ a, (f a).mapError g = f a) (as : List α) :
    (as.mapM f).mapError g = as.mapM f := by
  induction as with
  | nil => rfl
  | cons a rest ih =>
    simp only [List.mapM_cons, mapError_bind, hf, ih]
    rfl

theorem mapError_forM {g : ε → ε} {f : α → Except ε Unit} (hf : ∀ a, (f a).mapError g = f a) (as : List α) :
    (as.forM f).mapError g = as.forM f := by
  induction as with
  | nil => rfl
  | cons a rest ih =>
    show (f a >>= fun _ => rest.forM f).mapError g = _
    rw [mapError_bind, hf, ih]
    rfl

theorem mapM_map_except (g : β → γ) (f : α → Except ε β) (as : List α) :
    (as.mapM fun a => (f a).map g) = (as.mapM f).map (List.map g) := by
  induction as with
  | nil => rfl
  | cons a rest ih =>
    rw [List.mapM_cons, List.mapM_cons, ih]
    cases f a with
    | error e => rfl
    | ok b => cases rest.mapM f <;> rfl

/-- Two lists one after the other come to what the first comes to and then what the second does. -/
theorem flatten_mapM_append (f : α → Except ε (List β)) (as more : List α) :
    ((as ++ more).mapM f).map List.flatten =
      (do let bs ← (as.mapM f).map List.flatten; let cs ← (more.mapM f).map List.flatten; return bs ++ cs) := by
  rw [List.mapM_append]
  cases as.mapM f with
  | error e => rfl
  | ok bs =>
    cases more.mapM f with
    | error e => rfl
    | ok cs => exact congrArg Except.ok List.flatten_append

/-- Steps that are known to succeed give what they are known to give. -/
theorem mapM_eq_map {f : α → Except ε β} {g : α → β} {as : List α} (h : ∀ a ∈ as, f a = .ok (g a)) :
    as.mapM f = .ok (as.map g) := by
  induction as with
  | nil => rfl
  | cons a rest ih =>
    obtain ⟨hfirst, hrest⟩ := List.forall_mem_cons.mp h
    rw [List.mapM_cons, hfirst, ih hrest]
    rfl

/-- Where a step succeeds for every element, the results stand beside the elements. -/
theorem mapM_ok {f : α → Except ε β} {as : List α} {bs : List β} (h : as.mapM f = .ok bs) :
    List.Forall₂ (fun a b => f a = .ok b) as bs := by
  induction as generalizing bs with
  | nil =>
    obtain rfl := Except.ok.inj h
    exact .nil
  | cons a rest ih =>
    rw [List.mapM_cons] at h
    obtain ⟨b, hb, h⟩ := bind_ok h
    obtain ⟨more, hmore, h⟩ := bind_ok h
    obtain rfl := Except.ok.inj h
    exact .cons hb (ih hmore)

/-- The steps fail just when one of them does after others that succeed, and with its error. -/
theorem mapM_error_iff {f : α → Except ε β} {as : List α} {e : ε} :
    as.mapM f = .error e ↔
      ∃ before a after, as = before ++ a :: after ∧ (∀ b ∈ before, (f b).isOk = true) ∧ f a = .error e := by
  constructor
  · intro h
    induction as with
    | nil => exact nomatch h
    | cons a rest ih =>
      rw [List.mapM_cons] at h
      rcases bind_error h with hfirst | ⟨b, hfirst, h⟩
      · exact ⟨[], a, rest, rfl, fun b hb => absurd hb List.not_mem_nil, hfirst⟩
      · rcases bind_error h with hrest | ⟨bs, -, h⟩
        · obtain ⟨before, a', after, rfl, hbefore, ha'⟩ := ih hrest
          exact ⟨a :: before, a', after, rfl, List.forall_mem_cons.mpr ⟨by rw [hfirst]; rfl, hbefore⟩, ha'⟩
        · exact nomatch h
  · rintro ⟨before, a, after, rfl, hbefore, ha⟩
    induction before with
    | nil =>
      rw [List.nil_append, List.mapM_cons, ha]
      rfl
    | cons b rest ih =>
      obtain ⟨hb, hrest⟩ := List.forall_mem_cons.mp hbefore
      rw [List.cons_append, List.mapM_cons, ih hrest]
      cases hfb : f b with
      | ok c => rfl
      | error e' =>
        rw [hfb] at hb
        exact absurd hb Bool.false_ne_true

theorem mapM_error {f : α → Except ε β} {as : List α} {e : ε} (h : as.mapM f = .error e) :
    ∃ a ∈ as, f a = .error e := by
  obtain ⟨before, a, after, rfl, -, ha⟩ := mapM_error_iff.mp h
  exact ⟨a, List.mem_append_right before (List.mem_cons_self ..), ha⟩

/-! ### Elements and what stands beside them -/

theorem exists_of_mem_right {R : α → β → Prop} {as : List α} {bs : List β} {b : β} (h : List.Forall₂ R as bs)
    (hb : b ∈ bs) : ∃ a ∈ as, R a b := by
  induction h with
  | nil => exact nomatch hb
  | @cons a b' as bs hfirst _ ih =>
    rcases List.mem_cons.mp hb with rfl | hb
    · exact ⟨a, List.mem_cons_self .., hfirst⟩
    · obtain ⟨a', ha', hR⟩ := ih hb
      exact ⟨a', List.mem_cons_of_mem a ha', hR⟩

theorem exists_of_mem_left {R : α → β → Prop} {as : List α} {bs : List β} {a : α} (h : List.Forall₂ R as bs)
    (ha : a ∈ as) : ∃ b ∈ bs, R a b :=
  exists_of_mem_right h.flip ha

end DocQuery

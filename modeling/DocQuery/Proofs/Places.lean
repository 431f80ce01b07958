import DocQuery.Proofs.NormalForm
import DocQuery.Sql.Compile

/-! Places of bound values.

Compiling looks at the values bound before it only to count them: it gives what it gives on its
own with every place further on by that count, and binds what it binds on its own (`Writes`).
The places that it names are those of its slots, in order. `one`, `map` and `both` are the rules
by which this passes from the parts of a computation to the whole. -/
namespace DocQuery.Sql

open DocQuery.Symbol

/-! ### What names places -/

class Placed (α : Type) where
  /-- The same with every place further on by so many. -/
  raise : Nat → α → α
  /-- The places that are named, in the order of the text. -/
  places : α → List Nat
  raise_zero : ∀ a, raise 0 a = a
  raise_raise : ∀ k m a, raise k (raise m a) = raise (m + k) a
  places_raise : ∀ k a, places (raise k a) = (places a).map (· + k)

open Placed

instance : Placed Nat where
  raise k n := n + k
  places n := [n]
  raise_zero _ := rfl
  raise_raise k m n := Nat.add_assoc n m k
  places_raise _ _ := rfl

def Side.raise (k : Nat) : Side → Side
  | bound place => bound (place + k)
  | column c => column c

def Side.places : Side → List Nat
  | bound place => [place]
  | column _ => []

instance : Placed Side where
  raise := Side.raise
  places := Side.places
  raise_zero s := by cases s <;> rfl
  raise_raise k m s := by
    cases s with
    | bound place => exact congrArg Side.bound (Nat.add_assoc place m k)
    | column c => rfl
  places_raise k s := by cases s <;> rfl

def Term.raise (k : Nat) : Term → Term
  | nullTest negated c => nullTest negated c
  | compare symbol fold c other => compare symbol fold c (other.raise k)
  | member negated fold c other => member negated fold c (other.raise k)
  | range negated parens c low high => range negated parens c (low + k) (high + k)
  | allBits c mask again => allBits c (mask.raise k) (again.raise k)
  | someBits c mask => someBits c (mask.raise k)
  | never => never

def Term.places : Term → List Nat
  | nullTest _ _ => []
  | compare _ _ _ other => other.places
  | member _ _ _ other => other.places
  | range _ _ _ low high => [low, high]
  | allBits _ mask again => mask.places ++ again.places
  | someBits _ mask => mask.places
  | never => []

instance : Placed Term where
  raise := Term.raise
  places := Term.places
  raise_zero t := by
    have hside : ∀ s : Side, s.raise 0 = s := raise_zero
    cases t <;> simp [Term.raise, hside]
  raise_raise k m t := by
    have hside : ∀ s : Side, (s.raise m).raise k = s.raise (m + k) := raise_raise k m
    cases t <;> simp [Term.raise, hside, Nat.add_assoc]
  places_raise k t := by
    have hside : ∀ s : Side, (s.raise k).places = s.places.map (· + k) := places_raise k
    cases t <;> simp [Term.raise, Term.places, hside]

section Lists

variable {α : Type} [Placed α]

instance : Placed (List α) where
  raise k xs := xs.map (raise k)
  places xs := xs.flatMap places
  raise_zero xs := (List.map_congr_left fun a _ => raise_zero a).trans (List.map_id' xs)
  raise_raise k m xs := by simp [raise_raise]
  places_raise k xs := by simp [List.flatMap_map, List.map_flatMap, places_raise]

theorem raise_append (k : Nat) (xs ys : List α) : raise k (xs ++ ys) = raise k xs ++ raise k ys :=
  List.map_append

theorem places_append (xs ys : List α) : places (xs ++ ys) = places xs ++ places ys :=
  List.flatMap_append

theorem places_cons (x : α) (xs : List α) : places (x :: xs) = places x ++ places xs :=
  List.flatMap_cons

end Lists

section Symbols

variable {α : Type} [Placed α]

def raiseSymbol (k : Nat) : Symbol α → Symbol α
  | .atom a => .atom (raise k a)
  | .openParen => .openParen
  | .closeParen => .closeParen
  | .joiner j => .joiner j

def symbolPlaces : Symbol α → List Nat
  | .atom a => places a
  | _ => []

instance : Placed (Symbol α) where
  raise := raiseSymbol
  places := symbolPlaces
  raise_zero s := by cases s <;> simp [raiseSymbol, raise_zero]
  raise_raise k m s := by cases s <;> simp [raiseSymbol, raise_raise]
  places_raise k s := by cases s <;> simp [raiseSymbol, symbolPlaces, places_raise]

theorem raise_parenthesized (k : Nat) (symbols : List (Symbol α)) :
    raise k (parenthesized symbols) = parenthesized (raise k symbols) :=
  congrArg (openParen :: ·) (raise_append k symbols [closeParen])

theorem places_parenthesized (symbols : List (Symbol α)) :
    places (parenthesized symbols) = places symbols := by
  show places (symbols ++ [closeParen]) = _
  rw [places_append]
  exact List.append_nil _

theorem raise_joined (k : Nat) (j : Joiner) (parts : List (List (Symbol α))) :
    raise k (joined j parts) = joined j (raise k parts) := by
  induction parts with
  | nil => rfl
  | cons part rest ih =>
    cases rest with
    | nil => rfl
    | cons next rest =>
      show raise k (part ++ joiner j :: joined j (next :: rest)) = _
      rw [raise_append]
      exact congrArg (fun tail => raise k part ++ joiner j :: tail) ih

theorem places_joined (j : Joiner) (parts : List (List (Symbol α))) :
    places (joined j parts) = places parts := by
  induction parts with
  | nil => rfl
  | cons part rest ih =>
    cases rest with
    | nil => exact (List.append_nil _).symm
    | cons next rest =>
      show places (part ++ joiner j :: joined j (next :: rest)) = _
      rw [places_append, places_cons part, ← ih]
      rfl

end Symbols

instance : Placed Fragment where
  raise k f := ⟨f.joiner, raise k f.terms⟩
  places f := places f.terms
  raise_zero f := congrArg (Fragment.mk f.joiner) (raise_zero f.terms)
  raise_raise k m f := congrArg (Fragment.mk f.joiner) (raise_raise k m f.terms)
  places_raise k f := places_raise k f.terms

/-- Nothing of it depends on what was bound before. -/
structure Unplaced {α : Type} [Placed α] (a : α) : Prop where
  raise : ∀ k, raise k a = a
  places : places a = []

/-! ### Slots -/

/-- A bound value, and how often its place is written. -/
structure Slot where
  value : Value
  times : Nat

/-- What is written for slots, one for each bound value, after so many others. -/
def placesFrom (bound : Nat) : List Slot → List Nat
  | [] => []
  | s :: rest => List.replicate s.times (bound + 1) ++ placesFrom (bound + 1) rest

theorem placesFrom_append (bound : Nat) (slots more : List Slot) :
    placesFrom bound (slots ++ more) = placesFrom bound slots ++ placesFrom (bound + slots.length) more := by
  induction slots generalizing bound with
  | nil => rfl
  | cons s rest ih =>
    simp only [List.cons_append, placesFrom, ih, List.append_assoc, List.length_cons]
    rw [Nat.add_assoc, Nat.add_comm 1]

theorem placesFrom_add (bound k : Nat) (slots : List Slot) :
    placesFrom (bound + k) slots = (placesFrom bound slots).map (· + k) := by
  induction slots generalizing bound with
  | nil => rfl
  | cons s rest ih =>
    simp only [placesFrom, List.map_append, List.map_replicate, ← ih, Nat.add_right_comm bound 1 k]

theorem mem_placesFrom {n bound : Nat} {slots : List Slot} (h : n ∈ placesFrom bound slots) :
    ∃ i s, slots[i]? = some s ∧ n = bound + 1 + i := by
  induction slots generalizing bound with
  | nil => cases h
  | cons s rest ih =>
    rcases List.mem_append.mp h with h | h
    · exact ⟨0, s, rfl, List.eq_of_mem_replicate h⟩
    · obtain ⟨i, t, ht, rfl⟩ := ih h
      exact ⟨i + 1, t, ht, by omega⟩

/-! ### Computations -/

/-- Wherever it starts, the computation binds the values of the slots, and what it gives names
their places after those bound before. An error comes at the same point. -/
def Writes {α : Type} [Placed α] (x : Compile α) (slots : List Slot) : Prop :=
  ∃ result values, (∀ bound : Array Value,
      x.run.run bound = (Except.map (raise bound.size) result, bound ++ values)) ∧
    ∀ a, result = .ok a → values.toList = slots.map Slot.value ∧ places a = placesFrom 0 slots

namespace Writes

variable {α β γ : Type} [Placed α] [Placed β] [Placed γ] {slots more : List Slot}

/-- What is given after other values is what is given first of all, with its places further on. -/
theorem alone {x : Compile α} (h : Writes x slots) {bound after : Array Value} {a : α}
    (hrun : x.run.run bound = (.ok a, after)) :
    ∃ b values, x.run.run #[] = (.ok b, values) ∧ a = raise bound.size b ∧ after = bound ++ values := by
  obtain ⟨result, values, hall, -⟩ := h
  rw [hall] at hrun
  obtain ⟨hresult, rfl⟩ := Prod.mk.inj hrun
  cases result with
  | error e => exact nomatch hresult
  | ok b =>
    refine ⟨b, values, ?_, (Except.ok.inj hresult).symm, rfl⟩
    rw [hall, Array.empty_append]
    exact congrArg (fun c => (Except.ok c, values)) (raise_zero b)

/-- What is given first of all names the places of the slots, which stand for the slots' values. -/
theorem first {x : Compile α} (h : Writes x slots) {a : α} {values : Array Value}
    (hrun : x.run.run #[] = (.ok a, values)) : values.toList = slots.map Slot.value ∧ places a = placesFrom 0 slots := by
  obtain ⟨result, bound, hall, hok⟩ := h
  rw [hall, Array.empty_append] at hrun
  obtain ⟨hresult, rfl⟩ := Prod.mk.inj hrun
  cases result with
  | error e => exact nomatch hresult
  | ok b =>
    obtain rfl : b = a := (raise_zero b).symm.trans (Except.ok.inj hresult)
    exact hok b rfl

theorem pure {a : α} (h : Unplaced a) : Writes (Pure.pure a) [] := by
  refine ⟨.ok a, #[], fun bound => ?_, fun b hb => ⟨rfl, ?_⟩⟩
  · show (Except.ok a, bound) = (Except.ok (raise bound.size a), bound ++ #[])
    rw [h.raise, Array.append_empty]
  · obtain rfl := Except.ok.inj hb
    exact h.places

theorem throw (e : CompileError) : Writes (α := α) (throw e) slots := by
  refine ⟨.error e, #[], fun bound => ?_, fun a ha => nomatch ha⟩
  show (Except.error e, bound) = (Except.error e, bound ++ #[])
  rw [Array.append_empty]

/-- A value is bound, and what names its place is given. -/
theorem one {f : Nat → α} {v : Value} {times : Nat} (hraise : ∀ k n, raise k (f n) = f (n + k))
    (hplaces : ∀ n, places (f n) = List.replicate times n) :
    Writes (do let n ← bind v; return f n) [⟨v, times⟩] := by
  refine ⟨.ok (f 1), #[v], fun bound => ?_, fun a ha => ⟨rfl, ?_⟩⟩
  · show (Except.ok (f (bound.push v).size), bound.push v) =
      (Except.ok (raise bound.size (f 1)), bound ++ #[v])
    rw [hraise, Array.size_push, Nat.add_comm]
    rfl
  · obtain rfl := Except.ok.inj ha
    rw [hplaces]
    exact (List.append_nil _).symm

theorem bind (v : Value) : Writes (Sql.bind v) [⟨v, 1⟩] := by
  have hone : Writes (do let n ← Sql.bind v; return id n) [⟨v, 1⟩] := one (fun _ _ => rfl) fun _ => rfl
  rwa [bind_pure_comp, id_map] at hone

theorem map {x : Compile α} {f : α → β} (hx : Writes x slots)
    (hraise : ∀ k a, raise k (f a) = f (raise k a)) (hplaces : ∀ a, places (f a) = places a) :
    Writes (f <$> x) slots := by
  obtain ⟨result, values, hrun, hok⟩ := hx
  refine ⟨Except.map f result, values, fun bound => ?_, fun b hb => ?_⟩
  · rw [ExceptT.run_map, StateT.run_map, hrun]
    cases result with
    | error e => rfl
    | ok a => exact congrArg (fun b => (Except.ok b, bound ++ values)) (hraise bound.size a).symm
  · cases result with
    | error e => exact nomatch hb
    | ok a =>
      obtain rfl := Except.ok.inj hb
      rw [hplaces]
      exact hok a rfl

/-- One computation after another. What the second names stands after what the first names. -/
theorem both {x : Compile α} {y : Compile β} {f : α → β → γ} (hx : Writes x slots) (hy : Writes y more)
    (hraise : ∀ k a b, raise k (f a b) = f (raise k a) (raise k b))
    (hplaces : ∀ a b, places (f a b) = places a ++ places b) :
    Writes (do let a ← x; let b ← y; return f a b) (slots ++ more) := by
  obtain ⟨first, firstValues, hfirst, hfirstOk⟩ := hx
  obtain ⟨second, secondValues, hsecond, hsecondOk⟩ := hy
  cases first with
  | error e =>
    refine ⟨.error e, firstValues, fun bound => ?_, fun c hc => nomatch hc⟩
    rw [ExceptT.run_bind, StateT.run_bind, hfirst]
    rfl
  | ok a =>
    refine ⟨Except.map (fun b => f a (raise firstValues.size b)) second, firstValues ++ secondValues,
      fun bound => ?_, fun c hc => ?_⟩
    · have hrun : ((do let a ← x; let b ← y; return f a b : Compile γ)).run.run bound =
          ((do let b ← y; return f (raise bound.size a) b : Compile γ)).run.run (bound ++ firstValues) := by
        rw [ExceptT.run_bind, StateT.run_bind, hfirst]
        rfl
      rw [hrun, ExceptT.run_bind, StateT.run_bind, hsecond]
      cases second with
      | error e =>
        show (Except.error e, _) = (Except.error e, _)
        rw [Array.append_assoc]
      | ok b =>
        show (Except.ok (f (raise bound.size a) (raise (bound ++ firstValues).size b)), _) =
          (Except.ok (raise bound.size (f a (raise firstValues.size b))), _)
        rw [hraise, raise_raise, Array.size_append, Nat.add_comm, Array.append_assoc]
    · cases second with
      | error e => exact nomatch hc
      | ok b =>
        obtain rfl := Except.ok.inj hc
        obtain ⟨hvalues, hnamed⟩ := hfirstOk a rfl
        obtain ⟨hmore, hnamedMore⟩ := hsecondOk b rfl
        have hsize : firstValues.size = slots.length := by
          rw [← Array.length_toList, hvalues, List.length_map]
        refine ⟨by rw [Array.toList_append, hvalues, hmore, List.map_append], ?_⟩
        rw [hplaces, places_raise, hnamed, hnamedMore, placesFrom_append, hsize, ← placesFrom_add]

end Writes

end DocQuery.Sql

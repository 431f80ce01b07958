import DocQuery.Proofs.Agreement
import DocQuery.Proofs.Meaning

/-! One mask for several.

The mask of a list shares a bit with a pattern just when a member does (`maskFrom_spec`), and no other mask
does so (`eq_of_meets`). So a column that is tested for the bits of a list is tested once, with the mask of
the list, and the test says what the tests for the members say when they are joined by "or"
(`mask_stands_for_members`). -/
namespace DocQuery

namespace Value

/-! ### The mask of a list -/

theorem and_or_ne_zero {c a b : BitVec 64} : c &&& (a ||| b) ≠ 0 ↔ c &&& a ≠ 0 ∨ c &&& b ≠ 0 := by
  rw [BitVec.and_or_distrib_left, ne_eq, BitVec.ofNat_eq_ofNat, BitVec.or_eq_zero_iff, not_and_or]

/-- A pattern is known from those it shares a bit with. -/
theorem eq_of_meets {a b : BitVec 64} (h : ∀ c : BitVec 64, c &&& a ≠ 0 ↔ c &&& b ≠ 0) : a = b := by
  refine BitVec.eq_of_getLsbD_eq fun i hi => ?_
  have hbit : ∀ x : BitVec 64, BitVec.twoPow 64 i &&& x ≠ 0 ↔ x.getLsbD i = true := by
    intro x
    have hone : BitVec.twoPow 64 i ≠ 0 := fun hzero => by
      have hset := congrArg (BitVec.getLsbD · i) hzero
      simp [hi] at hset
    rw [BitVec.twoPow_and]
    split
    · next hset => exact ⟨fun _ => hset, fun _ => hone⟩
    · next hunset => exact ⟨fun hne => absurd rfl hne, fun hset => absurd hset hunset⟩
  exact Bool.eq_iff_iff.mpr ((hbit a).symm.trans ((h _).trans (hbit b)))

/-- The value is a whole number that shares a bit with the pattern. -/
def Meets (c : BitVec 64) (v : Value) : Prop :=
  ∃ bits, v.bits? = some bits ∧ c &&& bits ≠ 0

/-- The mask is signed if all members are, and it shares a bit with what the mask so far or some member
shares one with. -/
theorem maskFrom_spec {items : List Value} (h : ∀ v ∈ items, v.bits?.isSome = true) (mask : UInt64) (signed : Bool) :
    ∃ (sum : UInt64) (whole : Bool),
      maskFrom mask signed items = .ok (if whole then int sum.toInt64 else uint sum) ∧
      (whole = true ↔ signed = true ∧ ∀ n, uint n ∉ items) ∧
      ∀ c : BitVec 64, c &&& sum.toBitVec ≠ 0 ↔ c &&& mask.toBitVec ≠ 0 ∨ ∃ v ∈ items, v.Meets c := by
  induction items generalizing mask signed with
  | nil => exact ⟨mask, signed, rfl, by simp, fun c => by simp⟩
  | cons v rest ih =>
    obtain ⟨hv, hrest⟩ := List.forall_mem_cons.mp h
    have hmore : ∀ {n sum : UInt64}, v.bits? = some n.toBitVec →
        (∀ c : BitVec 64, c &&& sum.toBitVec ≠ 0 ↔ c &&& (mask ||| n).toBitVec ≠ 0 ∨ ∃ w ∈ rest, w.Meets c) →
        ∀ c : BitVec 64, c &&& sum.toBitVec ≠ 0 ↔ c &&& mask.toBitVec ≠ 0 ∨ ∃ w ∈ v :: rest, w.Meets c := by
      intro n sum hbits hmeets c
      have hfirst : v.Meets c ↔ c &&& n.toBitVec ≠ 0 := by simp [Meets, hbits]
      rw [hmeets, UInt64.toBitVec_or, and_or_ne_zero, List.exists_mem_cons_iff, hfirst, or_assoc]
    cases v with
    | int n =>
      obtain ⟨sum, whole, hsum, hwhole, hmeets⟩ := ih hrest (mask ||| n.toUInt64) signed
      exact ⟨sum, whole, hsum, by simpa using hwhole, hmore rfl hmeets⟩
    | uint n =>
      obtain ⟨sum, whole, hsum, hwhole, hmeets⟩ := ih hrest (mask ||| n) false
      refine ⟨sum, whole, hsum, ?_, hmore rfl hmeets⟩
      rw [hwhole]
      exact ⟨fun hfalse => absurd hfalse.1 Bool.false_ne_true, fun hno => absurd (List.mem_cons_self ..) (hno.2 n)⟩
    | _ => exact nomatch hv

/-- The mask of a list, and its pattern. -/
structure MaskOf (items : List Value) (mask : Value) (pattern : BitVec 64) : Prop where
  eq : bitMask items = .ok mask
  bits : mask.bits? = some pattern
  /-- It shares a bit with the patterns that a member shares one with. -/
  meets : ∀ c : BitVec 64, c &&& pattern ≠ 0 ↔ ∃ v ∈ items, ∃ bits, v.bits? = some bits ∧ c &&& bits ≠ 0
  /-- It is signed if every member is. -/
  signed : (∃ n, mask = .int n) ↔ ∀ n, uint n ∉ items

theorem exists_maskOf {items : List Value} (h : ∀ v ∈ items, v.bits?.isSome = true) :
    ∃ mask pattern, MaskOf items mask pattern := by
  obtain ⟨sum, whole, hsum, hwhole, hmeets⟩ := maskFrom_spec h 0 true
  refine ⟨_, sum.toBitVec, hsum, ?_, fun c => ?_, ?_⟩
  · cases whole <;> rfl
  · rw [hmeets]
    simp [Meets]
  · rw [← (hwhole.trans (and_iff_right rfl))]
    cases whole <;> simp

/-- Whole numbers of one pattern are the same if both are signed or neither is. -/
theorem eq_of_bits {v w : Value} {pattern : BitVec 64} (hv : v.bits? = some pattern) (hw : w.bits? = some pattern)
    (hsigned : (∃ n, v = .int n) ↔ ∃ n, w = .int n) : v = w := by
  cases v with
  | int m =>
    obtain ⟨n, rfl⟩ := hsigned.mp ⟨m, rfl⟩
    exact congrArg int (Int64.toBitVec_inj.mp (Option.some.inj (hv.trans hw.symm)))
  | uint m =>
    cases w with
    | uint n => exact congrArg uint (UInt64.toBitVec_inj.mp (Option.some.inj (hv.trans hw.symm)))
    | int n => exact nomatch (hsigned.mpr ⟨n, rfl⟩).choose_spec
    | _ => exact nomatch hw
  | _ => exact nomatch hv

/-- Lists with the same members have the same mask. -/
theorem MaskOf.congr {items others : List Value} {mask : Value} {pattern : BitVec 64} (h : MaskOf items mask pattern)
    (hwhole : ∀ v ∈ items, v.bits?.isSome = true) (hsame : ∀ v, v ∈ others ↔ v ∈ items) : bitMask others = .ok mask := by
  obtain ⟨mask', pattern', h'⟩ := exists_maskOf fun v hv => hwhole v ((hsame v).mp hv)
  obtain rfl : pattern' = pattern := eq_of_meets fun c => by rw [h.meets, h'.meets]; simp only [hsame]
  have hsigned : (∃ n, mask' = .int n) ↔ ∃ n, mask = .int n := by rw [h.signed, h'.signed]; simp only [hsame]
  rw [h'.eq, eq_of_bits h'.bits h.bits hsigned]

end Value

namespace Sql

open DocQuery.Value (MaskOf)

variable {d : Dialect} {params : ParamSet} {p : Predicate} {items : List Value} {mask : Value} {pattern : BitVec 64}
  {db : Database} {row : Row}

/-! ### Tests for bits -/

/-- The test for the mask is the disjunction of those for the members, unless there are none for a column
without a pattern. -/
theorem someBits_mask (h : MaskOf items mask pattern) (hwhole : ∀ v ∈ items, v.bits?.isSome = true) {c : Value}
    (hc : c.bits?.isSome = true ∨ items ≠ []) : someBits c mask = .join .or (items.map (someBits c)) := by
  cases hbits : c.bits? with
  | none =>
    have hunknown : ∀ v, someBits c v = .unknown := fun v => by simp [someBits, hbits]
    have hne : items ≠ [] := hc.resolve_left (by simp [hbits])
    rw [hunknown, funext hunknown, Truth.join_or_unknown hne]
  | some column =>
    have hmembers : items.map (someBits c) =
        items.map fun v => .ofBool (v.bits?.any fun bits => column &&& bits != 0) := by
      refine List.map_congr_left fun v hv => ?_
      obtain ⟨bits, hv⟩ := Option.isSome_iff_exists.mp (hwhole v hv)
      simp [someBits, hbits, hv]
    have hany : (column &&& pattern != 0) = items.any fun v => v.bits?.any fun bits => column &&& bits != 0 := by
      rw [Bool.eq_iff_iff, bne_iff_ne, h.meets, List.any_eq_true]
      simp [Option.any_eq_true]
    rw [hmembers, Truth.join_or_ofBool, ← hany]
    simp [someBits, hbits, h.bits]

/-- A test for the bits of one value says whether the column has some of them. -/
theorem says_someBits {v : Value} (h : (fragment d.numbered params p).run.run #[] =
    (.ok (.single (.someBits (columnOf p.qualifier p.field) (.bound 1))), #[v])) :
    Says d params db row (.leaf p) (someBits (row (columnOf p.qualifier p.field)) v) := by
  have hsays : Says d params db row (.leaf p) _ := says_leaf h
  rwa [leafTruth, Fragment.single, List.map_singleton, Truth.join_singleton] at hsays

theorem run_member (hop : p.op = .bitsOr) {v : Value} (hv : v.bits?.isSome = true) :
    (fragment d.numbered params { p with operand := .const v }).run.run #[] =
      (.ok (.single (.someBits (columnOf p.qualifier p.field) (.bound 1))), #[v]) := by
  obtain ⟨qualifier, field, op, operand, foldCase⟩ := p
  obtain rfl := hop
  cases v with
  | int n => rfl
  | uint n => rfl
  | _ => exact nomatch hv

theorem run_mask (hop : p.op = .bitsOr) (hlist : p.operand.Gives params (.list items)) (h : MaskOf items mask pattern)
    (hwhole : ∀ v ∈ items, v.bits?.isSome = true) : (fragment d.numbered params p).run.run #[] =
      (.ok (.single (.someBits (columnOf p.qualifier p.field) (.bound 1))), #[mask]) := by
  have hnull : items.any Value.isNull = false := by
    refine List.any_eq_false.mpr fun v hv hnull => ?_
    cases v with
    | null => exact nomatch hwhole _ hv
    | _ => exact nomatch hnull
  have hmask : valueFragment d.numbered p (.list items) = maskTest p items := by
    simp [valueFragment, collection, hop, Operator.isNullary]
  rw [fragment_of_gives hlist, hmask, maskTest, hnull, h.eq]
  rfl

/-- Predicates joined by "or" say the disjunction of what they say. -/
theorem says_disjunction {α : Type} {as : List α} {f : α → Predicate} {value : α → Truth} (hne : as ≠ [])
    (h : ∀ a ∈ as, Says d params db row (.leaf (f a)) (value a)) :
    Says d params db row (.node .or (as.map fun a => .leaf (f a))) (.join .or (as.map value)) := by
  have hleaves : (Tree.node .or (as.map Tree.leaf)).leaves = as := by
    rw [Tree.leaves_node, List.flatMap_map]
    exact List.flatMap_singleton' as
  have hpopulated : (Tree.node .or (as.map Tree.leaf)).Populated := by
    refine .node (by simpa using hne) fun t ht => ?_
    obtain ⟨a, -, rfl⟩ := List.mem_map.mp ht
    exact .leaf a
  have hsays := says_of_leaves (hleaves.symm ▸ hne) fun a ha => h a (hleaves ▸ ha)
  rw [Tree.weigh_normalize hpopulated, Tree.weigh_node, Tree.map_node, List.map_map, List.map_map] at hsays
  exact hsays

/-- **One mask stands for all members.** A list of whole numbers, signed or not, has a mask: a pattern shares
a bit with it just when it does with a member. The mask depends on the members alone, is signed just when all
of them are, and is zero if there are none. A column is tested for the bits of the list with this mask, and
where the column has a pattern, or the list a member, the test says what the tests for the members say when
they are joined by "or". -/
theorem mask_stands_for_members (hwhole : ∀ v ∈ items, v.bits?.isSome = true) :
    ∃ mask pattern, MaskOf items mask pattern ∧
      (∀ others, (∀ v, v ∈ others ↔ v ∈ items) → Value.bitMask others = .ok mask) ∧
      (items = [] → mask = .int 0) ∧
      ∀ (d : Dialect) (params : ParamSet) (p : Predicate), p.op = .bitsOr → p.operand.Gives params (.list items) →
        compileTree d params (.leaf p) =
          .ok ⟨(Term.someBits (columnOf p.qualifier p.field) (.bound 1)).text d, [mask]⟩ ∧
        ∀ (db : Database) (row : Row), (row (columnOf p.qualifier p.field)).bits?.isSome = true ∨ items ≠ [] →
          ∃ truths, List.Forall₂ (fun v => Says d params db row (.leaf { p with operand := .const v })) items truths ∧
            Says d params db row (.leaf p) (.join .or truths) ∧
            (items ≠ [] → Says d params db row
              (.node .or (items.map fun v => .leaf { p with operand := .const v })) (.join .or truths)) := by
  obtain ⟨mask, pattern, hmask⟩ := Value.exists_maskOf hwhole
  refine ⟨mask, pattern, hmask, fun others => hmask.congr hwhole, ?_, fun d params p hop hlist => ?_⟩
  · rintro rfl
    exact (Except.ok.inj hmask.eq).symm
  · have hrun := run_mask (d := d) hop hlist hmask hwhole
    refine ⟨?_, fun db row hcolumn => ?_⟩
    · rw [compileTree_leaf hrun]
      simp [Fragment.tokens, Fragment.single, Symbol.joined, render, Token.text, String.join]
    · have hmember : ∀ v ∈ items, Says d params db row (.leaf { p with operand := .const v })
          (someBits (row (columnOf p.qualifier p.field)) v) := fun v hv => says_someBits (run_member hop (hwhole v hv))
      refine ⟨items.map (someBits (row (columnOf p.qualifier p.field))), ?_, ?_, fun hne => ?_⟩
      · exact List.forall₂_map_right_iff.mpr (List.forall₂_same.mpr hmember)
      · rw [← someBits_mask hmask hwhole hcolumn]
        exact says_someBits hrun
      · exact says_disjunction hne hmember

/-! The sign bit and two others, one of them twice, for a column that has all bits. -/

def lamps : Field := { name := "lamps", storage := "Lamps", kind := .bits }

def panel : Document where
  path := "plant.Panel"
  name := "Panel"
  storage := "panels"
  fields := [lamps]

def lampMasks : List Value :=
  [.int Int64.minValue, .uint 1, .int 4, .int 4]

def lit : Predicate where
  qualifier := ""
  field := ⟨panel, [⟨panel, lamps⟩], List.cons_ne_nil _ _⟩
  op := .bitsOr
  operand := .const (.list lampMasks)

def bitsOnly : Database where
  compares _ _ _ := .unknown
  lower v := v

def allLit : Row := fun _ => .int (-1)

theorem mask_stands_for_members_lamps :
    (∀ v ∈ lampMasks, v.bits?.isSome = true) ∧
    compileTree .postgres {} (.leaf lit) = .ok ⟨"(\"Lamps\" & $1) <> 0", [.uint 0x8000000000000005]⟩ ∧
    ∃ truths, List.Forall₂ (fun v => Says .postgres {} bitsOnly allLit (.leaf { lit with operand := .const v }))
        lampMasks truths ∧
      Says .postgres {} bitsOnly allLit (.leaf lit) (.join .or truths) := by
  have hwhole : ∀ v ∈ lampMasks, v.bits?.isSome = true := by decide
  obtain ⟨mask, pattern, -, -, -, htests⟩ := mask_stands_for_members hwhole
  obtain ⟨-, hsays⟩ := htests .postgres {} lit rfl .const
  obtain ⟨truths, hmembers, hlit, -⟩ := hsays bitsOnly allLit (.inl rfl)
  exact ⟨hwhole, rfl, truths, hmembers, hlit⟩

end Sql

end DocQuery

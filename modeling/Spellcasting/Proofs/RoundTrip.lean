import Spellcasting.Proofs.Doubles
import Spellcasting.Proofs.WrittenIdentities

/-! # Round trips

A value is read back from its tree as it was if all of its doubles are finite, bit for bit. A double
that is not finite is null where it should stand, and the value is not read back at all.
-/

namespace Spellcasting

open Spellcasting.Tree (Reads Same SameMembers)

section IfFinite

variable {α β : Type} (doubles more : List PlacedDouble) (x : α)

/-- The value, unless one of the doubles is not finite. -/
def ifFinite : Option α := if doubles.all fun d => d.2.isFinite then some x else none

@[simp] theorem ifFinite_nil : ifFinite [] x = some x := rfl

theorem ifFinite_under (key : Tree.Key) : ifFinite (under key doubles) x = ifFinite doubles x := by
  rw [ifFinite, under, List.all_map]
  rfl

@[simp] theorem ifFinite_map (f : α → β) : (ifFinite doubles x).map f = ifFinite doubles (f x) := by
  unfold ifFinite
  split <;> rfl

@[simp] theorem ifFinite_bind_some (f : α → β) :
    ((ifFinite doubles x).bind fun a => some (f a)) = ifFinite doubles (f x) := by
  unfold ifFinite
  split <;> rfl

@[simp] theorem ifFinite_bind (f : α → β) :
    ((ifFinite doubles x).bind fun a => ifFinite more (f a)) =
      ifFinite (doubles ++ more) (f x) := by
  simp only [ifFinite, List.all_append]
  cases doubles.all fun d => d.2.isFinite <;> rfl

end IfFinite

theorem Tree.SameMembers.field {α : Type} {as bs : List (String × Tree)} {written : Tree}
    {read : Tree → Option α} {doubles : List PlacedDouble} {x : α}
    (same : SameMembers as bs) (name : String) (place : Nat) (found : bs.lookup name = some written)
    (reads : Reads read written (ifFinite doubles x)) :
    (Record.named as).required name place read = ifFinite (under (.field name) doubles) x := by
  rw [ifFinite_under]
  exact same.required name place found reads

namespace Tree

theorem reads_ofDouble (d : Double) : Reads float? (ofDouble d) (ifFinite (alone d) d) := by
  unfold ofDouble
  by_cases finite : d.isFinite
  · exact .leaf (by rw [if_pos finite]; rfl) (by simp [ifFinite, alone, finite, float?])
  · exact .leaf (by rw [if_neg finite]; rfl) (by simp [ifFinite, alone, finite, float?])

theorem reads_ofWord (n : UInt64) : Reads word64? (ofWord n) (some n) := by
  refine .leaf rfl ?_
  simp [ofWord, word64?, n.toNat_lt]

theorem reads_limit (n : UInt64) : Reads (option? word64?) (ofWord n) (some (some n)) :=
  .leaf rfl (congrArg (·.map some) (reads_ofWord n _ (.refl _)))

theorem reads_word32 (n : UInt32) : Reads word32? (.int n.toNat) (some n) := by
  refine .leaf rfl ?_
  simp [word32?, n.toNat_lt]

theorem reads_bool (b : Bool) : Reads bool? (.bool b) (some b) := .leaf rfl rfl

theorem reads_text (s : String) : Reads text? (.text s) (some s) := .leaf rfl rfl

end Tree

theorem Hand.reads (rules : Rules) (h : Hand) : Reads (ofTree? rules) h.toTree (some h) :=
  .leaf rfl (by cases h <;> rfl)

theorem EntityKind.reads (rules : Rules) (k : EntityKind) :
    Reads (ofTree? rules) k.toTree (some k) :=
  .leaf rfl (by cases k <;> rfl)

theorem EntityId.reads (rules : Rules) (id : EntityId) :
    Reads (ofTree? rules) id.toTree (some id) :=
  .leaf rfl id.ofText?_text

theorem ItemId.reads (i : ItemId) : Reads ofTree? i.toTree (some i) := .leaf rfl rfl

theorem Vec3.reads (rules : Rules) (v : Vec3) :
    Reads (ofTree? rules) v.toTree (ifFinite v.doubles v) := by
  intro t same
  obtain ⟨members, rfl, part⟩ := same.object_right
  have x := part.field "x" 0 rfl (Tree.reads_ofDouble v.x)
  have y := part.field "y" 1 rfl (Tree.reads_ofDouble v.y)
  have z := part.field "z" 2 rfl (Tree.reads_ofDouble v.z)
  simp [ofTree?, Rules.record?, x, y, z, doubles]

theorem Spray.reads (rules : Rules) (s : Spray) :
    Reads (ofTree? rules) s.toTree (ifFinite s.doubles s) := by
  intro t same
  obtain ⟨members, rfl, part⟩ := same.object_right
  have pos := part.field "pos" 0 rfl (s.pos.reads rules)
  have vel := part.field "vel" 1 rfl (s.vel.reads rules)
  have fuzziness := part.field "fuzziness" 2 rfl (Tree.reads_ofDouble s.fuzziness)
  have spread := part.field "spread" 3 rfl (Tree.reads_ofDouble s.spread)
  have count := part.required "count" 4 rfl (Tree.reads_word32 s.count)
  simp [ofTree?, Rules.record?, pos, vel, fuzziness, spread, count, doubles]

theorem EntityRef.reads (rules : Rules) (e : EntityRef) :
    Reads (ofTree? rules) e.toTree (ifFinite e.doubles e) := by
  intro t same
  obtain ⟨members, rfl, part⟩ := same.object_right
  have id := part.required "id" 0 rfl (e.id.reads rules)
  have kind := part.required "kind" 1 rfl (e.kind.reads rules)
  have name := part.required "name" 2 rfl (Tree.reads_text e.name)
  simp [ofTree?, Rules.record?, id, kind, name, doubles]

theorem ItemStack.reads (rules : Rules) (s : ItemStack) :
    Reads (ofTree? rules) s.toTree (ifFinite s.doubles s) := by
  intro t same
  obtain ⟨members, rfl, part⟩ := same.object_right
  have item := part.required "item" 0 rfl s.item.reads
  have count := part.required "count" 1 rfl (Tree.reads_word32 s.count)
  have media := part.defaulted "media" 2 0 rfl (Tree.reads_ofWord s.media)
  have maxMedia : (Record.named members).defaulted "max_media" 3 none
      (Tree.option? Tree.word64?) = some s.maxMedia := by
    cases limit : s.maxMedia with
    | none => exact part.defaulted_absent "max_media" 3 none (by simp [limit])
    | some m =>
        exact part.defaulted "max_media" 3 none (by simp [limit]; rfl) (Tree.reads_limit m)
  simp [ofTree?, Rules.record?, item, count, media, maxMedia, doubles]

namespace Iota

theorem kind?_named {rules : Rules} {as bs : List (String × Tree)} {kind : IotaKind}
    (part : SameMembers as bs) (found : bs.lookup "type" = some (.text kind.name)) :
    kind? rules (.named as) = some kind :=
  part.required "type" 0 found (.leaf rfl (by cases kind <;> rfl))

theorem noContent?_named {as bs : List (String × Tree)} (part : SameMembers as bs)
    (absent : bs.lookup "value" = none) : noContent? (.named as) = some () := by
  simp [noContent?, Record.field?, part.lookup_none "value" absent]

theorem toTree_eq_object (i : Iota) : i.toTree = .object (i.toTree.object?.getD []) := by
  cases i <;> rfl

mutual

-- The rules are not fixed, as what follows the kind may be read by others.
theorem reads_within (i : Iota) (levels : Nat) (rules : Rules) (t : Tree)
    (same : t.Same i.toTree) (inside : t.depth ≤ levels) :
    ofTreeWithin? levels rules t = ifFinite i.doubles i := by
  rw [toTree_eq_object] at same
  obtain ⟨members, rfl, part⟩ := same.object_right
  cases levels with
  | zero => cases inside
  | succ levels =>
      have kind : kind? rules (.named members) = some i.kind :=
        kind?_named part (by cases i <;> rfl)
      rw [ofTreeWithin?, Rules.record?]
      simp only [Option.bind_eq_bind, Option.bind_some, kind]
      cases i with
      | null => simp [Iota.kind, noContent?_named part rfl, doubles]
      | double d => simp [Iota.kind, part.field "value" 1 rfl (Tree.reads_ofDouble d), doubles]
      | bool b => simp [Iota.kind, part.required "value" 1 rfl (Tree.reads_bool b), doubles]
      | vec3 v => simp [Iota.kind, part.field "value" 1 rfl (v.reads _), doubles]
      | list items =>
          obtain ⟨content, found, content_same⟩ := part.lookup_some "value" rfl
          obtain ⟨elements, rfl, elements_same⟩ := content_same.array_right
          have value := reads_all items 0 levels (contentRules rules (.named members)) elements
            elements_same (Tree.depthAll_le_of_lookup found inside)
          simp [Iota.kind, Record.required, Record.field?, found, Tree.array?, value, doubles,
            ifFinite_under]
      | entity e => simp [Iota.kind, part.field "value" 1 rfl (e.reads _), doubles]
      | item s => simp [Iota.kind, part.field "value" 1 rfl (s.reads _), doubles]
      | pattern signature =>
          simp [Iota.kind, part.required "value" 1 rfl (Tree.reads_text signature), doubles]
      | garbage => simp [Iota.kind, noContent?_named part rfl, doubles]

theorem reads_all (items : List Iota) (start levels : Nat) (rules : Rules) (elements : List Tree)
    (same : List.Forall₂ Same elements (toTrees items)) (inside : Tree.depthAll elements ≤ levels) :
    elements.mapM (ofTreeWithin? levels rules) = ifFinite (doublesFrom start items) items := by
  cases items with
  | nil =>
      cases same with
      | nil => rfl
  | cons i rest =>
      cases same with
      | cons first others =>
          rw [Tree.depthAll, Nat.max_le] at inside
          have one := reads_within i levels rules _ first inside.1
          have more := reads_all rest (start + 1) levels rules _ others inside.2
          rw [← ifFinite_under _ _ (.index start)] at one
          simp [List.mapM_cons, one, more, doublesFrom]

end

theorem reads (rules : Rules) (i : Iota) : Reads (ofTree? rules) i.toTree (ifFinite i.doubles i) :=
  fun t same => reads_within i t.depth rules t same (Nat.le_refl _)

end Iota

theorem MishapKind.lookup_names (k : MishapKind) : names.lookup k.name = some k := by
  cases k <;> rfl

namespace Mishap

theorem reads (rules : Rules) (m : Mishap) :
    Reads (ofTree? rules) m.toTree (ifFinite m.doubles m) := by
  intro t same
  obtain ⟨members, rfl, part⟩ := same.object_right
  have kind : rules.tagged? MishapKind.names (.object members) = some (m.kind, .named members) := by
    obtain ⟨tag, found, tag_same⟩ := part.lookup_some "kind" rfl
    cases tag_same.eq_of_leaf rfl
    simp [Rules.tagged?, found, Rules.tag?, MishapKind.lookup_names]
  simp only [ofTree?, Option.bind_eq_bind, kind, Option.bind_some, Record.fits, if_true]
  -- Held back or not, the fields are read alike.
  generalize rules.hold = rules
  cases m with
  | notEnoughArgs expected got =>
      have expected := part.required "expected" 0 rfl (Tree.reads_ofWord expected)
      have got := part.required "got" 1 rfl (Tree.reads_ofWord got)
      simp [Mishap.kind, ofFields?, expected, got, doubles]
  | invalidIota index expected got =>
      have index := part.required "index" 0 rfl (Tree.reads_ofWord index)
      have expected := part.required "expected" 1 rfl (Tree.reads_text expected)
      have got := part.field "got" 2 rfl (got.reads rules)
      simp [Mishap.kind, ofFields?, index, expected, got, doubles]
  | badItem entity item wanted =>
      have entity := part.field "entity" 0 rfl (entity.reads rules)
      have item := part.field "item" 1 rfl (item.reads rules)
      have wanted := part.required "wanted" 2 rfl (Tree.reads_text wanted)
      simp [Mishap.kind, ofFields?, entity, item, wanted, doubles]
  | badOffhandItem item hand wanted =>
      have item := part.field "item" 0 rfl (item.reads rules)
      have hand := part.required "hand" 1 rfl (hand.reads rules)
      have wanted := part.required "wanted" 2 rfl (Tree.reads_text wanted)
      simp [Mishap.kind, ofFields?, item, hand, wanted, doubles]
  | entityTooFarAway entity =>
      have entity := part.field "entity" 0 rfl (entity.reads rules)
      simp [Mishap.kind, ofFields?, entity, doubles]
  | locationTooFarAway location =>
      have location := part.field "location" 0 rfl (location.reads rules)
      simp [Mishap.kind, ofFields?, location, doubles]
  | divideByZero operand1 operand2 =>
      have operand1 := part.field "operand1" 0 rfl (operand1.reads rules)
      have operand2 := part.field "operand2" 1 rfl (operand2.reads rules)
      simp [Mishap.kind, ofFields?, operand1, operand2, doubles]
  | notEnoughMedia required available =>
      have required := part.required "required" 0 rfl (Tree.reads_ofWord required)
      have available := part.required "available" 1 rfl (Tree.reads_ofWord available)
      simp [Mishap.kind, ofFields?, required, available, doubles]
  | evalTooDeep limit =>
      have limit := part.required "limit" 0 rfl (Tree.reads_ofWord limit)
      simp [Mishap.kind, ofFields?, limit, doubles]
  | stackOverflow limit =>
      have limit := part.required "limit" 0 rfl (Tree.reads_ofWord limit)
      simp [Mishap.kind, ofFields?, limit, doubles]
  | invalidPattern name =>
      have name := part.required "name" 0 rfl (Tree.reads_text name)
      simp [Mishap.kind, ofFields?, name, doubles]

end Mishap

/-- A value is read back from its tree, whatever the order of the members, if it has finite doubles
only. Otherwise those that are not finite are null in the tree, and the tree is refused. -/
structure RoundTrips {α : Type} (write : α → Tree) (read : Tree → Option α)
    (doubles : α → List PlacedDouble) : Prop where
  read_back : ∀ (x : α) (t : Tree), t.Same (write x) → (∀ d ∈ doubles x, d.2.isFinite) →
    read t = some x
  null_at : ∀ (x : α) (t : Tree), t.Same (write x) → ∀ d ∈ doubles x, ¬ d.2.isFinite →
    t.at? d.1 = some .null
  refused : ∀ (x : α) (t : Tree), t.Same (write x) → (∃ d ∈ doubles x, ¬ d.2.isFinite) →
    read t = none

theorem RoundTrips.of_reads {α : Type} {write : α → Tree} {read : Tree → Option α}
    {doubles : α → List PlacedDouble} (reads : ∀ x, Reads read (write x) (ifFinite (doubles x) x))
    (holds : ∀ x, (write x).Holds (doubles x)) : RoundTrips write read doubles where
  read_back := by
    intro x t same finite
    rw [reads x t same, ifFinite, if_pos (List.all_eq_true.mpr finite)]
  null_at := by
    intro x t same d mem infinite
    have there := holds x d mem
    rw [Tree.ofDouble, if_neg infinite] at there
    exact same.null_at there
  refused := by
    intro x t same ⟨d, mem, infinite⟩
    rw [reads x t same, ifFinite, if_neg]
    intro finite
    exact infinite (List.all_eq_true.mp finite d mem)

/-- Exactly the values without a double that is not finite survive being written. -/
theorem exactly_finite_values_are_read_back :
    RoundTrips Iota.toTree (Iota.ofTree? .json) Iota.doubles ∧
    RoundTrips ItemStack.toTree (ItemStack.ofTree? .json) ItemStack.doubles ∧
    RoundTrips EntityRef.toTree (EntityRef.ofTree? .json) EntityRef.doubles ∧
    RoundTrips Vec3.toTree (Vec3.ofTree? .json) Vec3.doubles ∧
    RoundTrips Spray.toTree (Spray.ofTree? .json) Spray.doubles ∧
    RoundTrips Mishap.toTree (Mishap.ofTree? .json) Mishap.doubles := by
  refine ⟨.of_reads (Iota.reads .json) Iota.holds, .of_reads (ItemStack.reads .json) ?_,
    .of_reads (EntityRef.reads .json) ?_, .of_reads (Vec3.reads .json) Vec3.holds,
    .of_reads (Spray.reads .json) Spray.holds, .of_reads (Mishap.reads .json) Mishap.holds⟩
  · exact fun s => .nil s.toTree
  · exact fun e => .nil e.toTree

/-- A negative zero two lists deep is read back, also from members in the other order, and an
infinite coordinate of a vector in a list is null in the tree and makes the whole of it unreadable.
-/
theorem nested_doubles_are_read_back_or_null :
    Iota.ofTree? .json (Iota.list [.list [.double (-0.0)]]).toTree =
        some (.list [.list [.double (-0.0)]]) ∧
      Iota.ofTree? .json (.object [("value", .float (-0.0)), ("type", .text "double")]) =
        some (.double (-0.0)) ∧
      (Iota.list [.vec3 ⟨0, 1 / 0, 0⟩]).toTree.at?
        [.field "value", .index 0, .field "value", .field "y"] = some .null ∧
      Iota.ofTree? .json (Iota.list [.vec3 ⟨0, 1 / 0, 0⟩]).toTree = none := by
  have iotas := exactly_finite_values_are_read_back.1
  have swapped : Same (.object [("value", .float (-0.0)), ("type", .text "double")])
      (Iota.double (-0.0)).toTree := .of_perm (.swap ..) (by decide)
  have infinite : (([.field "value", .index 0, .field "value", .field "y"], 1 / 0) : PlacedDouble) ∈
      (Iota.list [.vec3 ⟨0, 1 / 0, 0⟩]).doubles := .tail _ (.head _)
  exact ⟨iotas.read_back _ _ (.refl _) (by decide +kernel),
    iotas.read_back _ _ swapped (by decide +kernel),
    iotas.null_at _ _ (.refl _) _ infinite (by decide +kernel),
    iotas.refused _ _ (.refl _) ⟨_, infinite, by decide +kernel⟩⟩

end Spellcasting

import Mathlib.Data.Finset.Card
import Mathlib.Data.List.Nodup
import Mathlib.Data.Set.Card
import Spellcasting.Iota.Comparison
import Std.Data.HashSet.Lemmas

/-! # Sameness

Two iotas are the same if they are of one kind and have the same content, doubles by their bits,
also inside vectors and at any depth inside lists. Exact equality decides just that, and so do the
words that an iota feeds to a hash function: they tell where they end, and nothing is left out. So a
hash set, whatever its hash function makes of these words, has one member for each class of the
iotas that have been put in.
-/

namespace Spellcasting

namespace Vec3

/-- All components have the same bits. -/
structure SameAs (a b : Vec3) : Prop where
  x : a.x.bits = b.x.bits
  y : a.y.bits = b.y.bits
  z : a.z.bits = b.z.bits

theorem sameBits_iff {a b : Vec3} : a.sameBits b = true ↔ a.SameAs b := by
  simp only [sameBits, Bool.and_eq_true, beq_iff_eq]
  exact ⟨fun ⟨⟨x, y⟩, z⟩ => ⟨x, y, z⟩, fun ⟨x, y, z⟩ => ⟨⟨x, y⟩, z⟩⟩

theorem SameAs.eq {a b : Vec3} (same : a.SameAs b) : a = b := by
  have x : a.x = b.x := Double.ext same.x
  have y : a.y = b.y := Double.ext same.y
  have z : a.z = b.z := Double.ext same.z
  cases a
  cases b
  cases x
  cases y
  cases z
  rfl

end Vec3

namespace EntityRef

theorem eq_of_feeds {e f : EntityRef} {more others : List HashWord}
    (feeds : e.hashFeed ++ more = f.hashFeed ++ others) : e = f ∧ more = others := by
  obtain ⟨⟨i⟩, k, n⟩ := e
  obtain ⟨⟨j⟩, l, m⟩ := f
  simp only [hashFeed, List.cons_append, List.nil_append, List.cons.injEq, HashWord.number.injEq,
    HashWord.tag.injEq, HashWord.text.injEq] at feeds
  obtain ⟨id, kind, rfl, rfl⟩ := feeds
  cases BitVec.eq_of_toNat_eq id
  have kinds : k = l := by
    cases k <;> cases l <;> first | rfl | cases kind
  cases kinds
  exact ⟨rfl, rfl⟩

end EntityRef

namespace ItemStack

theorem eq_of_feeds {s t : ItemStack} {more others : List HashWord}
    (feeds : s.hashFeed ++ more = t.hashFeed ++ others) : s = t ∧ more = others := by
  obtain ⟨⟨i⟩, c, m, limit⟩ := s
  obtain ⟨⟨j⟩, d, n, bound⟩ := t
  simp only [hashFeed, List.cons_append, List.nil_append, List.cons.injEq, HashWord.number.injEq,
    HashWord.word.injEq, HashWord.text.injEq] at feeds
  obtain ⟨rfl, count, rfl, rest⟩ := feeds
  cases UInt32.toNat_inj.mp count
  -- A limit is told from none by its tag, so what follows cannot be taken for one.
  cases limit with
  | none =>
      cases bound with
      | none =>
          cases rest
          exact ⟨rfl, rfl⟩
      | some _ => cases rest
  | some _ =>
      cases bound with
      | none => cases rest
      | some _ =>
          cases rest
          exact ⟨rfl, rfl⟩

end ItemStack

namespace Iota

/-- The same kind with the same content. -/
inductive SameAs : Iota → Iota → Prop where
  | null : SameAs null null
  | double {a b} (bits : a.bits = b.bits) : SameAs (double a) (double b)
  | bool (b) : SameAs (bool b) (bool b)
  | vec3 {a b} (bits : a.SameAs b) : SameAs (vec3 a) (vec3 b)
  | list {as bs} (members : List.Forall₂ SameAs as bs) : SameAs (list as) (list bs)
  | entity (e) : SameAs (entity e) (entity e)
  | item (s) : SameAs (item s) (item s)
  | pattern (signature) : SameAs (pattern signature) (pattern signature)
  | garbage : SameAs garbage garbage

mutual

theorem SameAs.refl : ∀ i : Iota, i.SameAs i
  | null => .null
  | double _ => .double rfl
  | bool b => .bool b
  | vec3 _ => .vec3 ⟨rfl, rfl, rfl⟩
  | list items => .list (sameAll_refl items)
  | entity e => .entity e
  | item s => .item s
  | pattern signature => .pattern signature
  | garbage => .garbage

theorem sameAll_refl : ∀ items : List Iota, List.Forall₂ SameAs items items
  | [] => .nil
  | i :: rest => .cons (.refl i) (sameAll_refl rest)

end

mutual

theorem SameAs.eq {a b : Iota} (same : a.SameAs b) : a = b := by
  cases same with
  | double bits => exact congrArg double (Double.ext bits)
  | vec3 bits => exact congrArg vec3 bits.eq
  | list members => exact congrArg list (eq_of_sameAll members)
  | _ => rfl
termination_by sizeOf a

theorem eq_of_sameAll {as bs : List Iota} (members : List.Forall₂ SameAs as bs) : as = bs := by
  cases members with
  | nil => rfl
  | cons first rest => rw [first.eq, eq_of_sameAll rest]
termination_by sizeOf as

end

mutual

theorem same_of_beq {a b : Iota} (equal : beq a b = true) : a.SameAs b := by
  cases a with
  | null =>
      cases b with
      | null => exact .null
      | _ => cases equal
  | double x =>
      cases b with
      | double y => exact .double (eq_of_beq equal)
      | _ => cases equal
  | bool x =>
      cases b with
      | bool y =>
          cases eq_of_beq (a := x) (b := y) equal
          exact .bool x
      | _ => cases equal
  | vec3 x =>
      cases b with
      | vec3 y => exact .vec3 (Vec3.sameBits_iff.mp equal)
      | _ => cases equal
  | list as =>
      cases b with
      | list bs => exact .list (sameAll_of_beqAll equal)
      | _ => cases equal
  | entity e =>
      cases b with
      | entity f =>
          cases eq_of_beq (a := e) (b := f) equal
          exact .entity e
      | _ => cases equal
  | item s =>
      cases b with
      | item t =>
          cases eq_of_beq (a := s) (b := t) equal
          exact .item s
      | _ => cases equal
  | pattern signature =>
      cases b with
      | pattern other =>
          cases eq_of_beq (a := signature) (b := other) equal
          exact .pattern signature
      | _ => cases equal
  | garbage =>
      cases b with
      | garbage => exact .garbage
      | _ => cases equal
termination_by sizeOf a

theorem sameAll_of_beqAll {as bs : List Iota} (equal : beqAll as bs = true) :
    List.Forall₂ SameAs as bs := by
  cases as with
  | nil =>
      cases bs with
      | nil => exact .nil
      | cons b bs => cases equal
  | cons a as =>
      cases bs with
      | nil => cases equal
      | cons b bs =>
          obtain ⟨first, rest⟩ := Bool.and_eq_true_iff.mp equal
          exact .cons (same_of_beq first) (sameAll_of_beqAll rest)
termination_by sizeOf as

end

mutual

theorem SameAs.beq {a b : Iota} (same : a.SameAs b) : Iota.beq a b = true := by
  cases same with
  | null => rfl
  | double bits => exact beq_iff_eq.mpr bits
  | bool b => exact BEq.rfl (a := b)
  | vec3 bits => exact Vec3.sameBits_iff.mpr bits
  | list members => exact beqAll_of_sameAll members
  | entity e => exact BEq.rfl (a := e)
  | item s => exact BEq.rfl (a := s)
  | pattern signature => exact BEq.rfl (a := signature)
  | garbage => rfl
termination_by sizeOf a

theorem beqAll_of_sameAll {as bs : List Iota} (members : List.Forall₂ SameAs as bs) :
    beqAll as bs = true := by
  cases members with
  | nil => rfl
  | cons first rest => exact Bool.and_eq_true_iff.mpr ⟨first.beq, beqAll_of_sameAll rest⟩
termination_by sizeOf as

end

theorem beq_iff_same {a b : Iota} : (a == b) = true ↔ a.SameAs b := ⟨same_of_beq, SameAs.beq⟩

instance : LawfulBEq Iota where
  rfl := beq_iff_same.mpr (.refl _)
  eq_of_beq equal := (beq_iff_same.mp equal).eq

mutual

/-- The words of an iota tell where they end, whatever follows them. -/
theorem same_of_feeds {a b : Iota} {more others : List HashWord}
    (feeds : a.hashFeed ++ more = b.hashFeed ++ others) : a.SameAs b ∧ more = others := by
  cases a with
  | null =>
      cases b with
      | null =>
          cases feeds
          exact ⟨.null, rfl⟩
      | _ => cases feeds
  | double x =>
      cases b with
      | double y =>
          simp only [hashFeed, List.cons_append, List.nil_append, List.cons.injEq,
            HashWord.word.injEq] at feeds
          exact ⟨.double feeds.2.1, feeds.2.2⟩
      | _ => cases feeds
  | bool x =>
      cases b with
      | bool y =>
          cases x <;> cases y <;> cases feeds <;> exact ⟨.bool _, rfl⟩
      | _ => cases feeds
  | vec3 x =>
      cases b with
      | vec3 y =>
          simp only [hashFeed, List.cons_append, List.nil_append, List.cons.injEq,
            HashWord.word.injEq] at feeds
          obtain ⟨-, -, first, second, third, rest⟩ := feeds
          exact ⟨.vec3 ⟨first, second, third⟩, rest⟩
      | _ => cases feeds
  | list as =>
      cases b with
      | list bs =>
          simp only [hashFeed, List.cons_append, List.cons.injEq, HashWord.number.injEq] at feeds
          obtain ⟨-, lengths, rest⟩ := feeds
          obtain ⟨members, rest⟩ := sameAll_of_feeds lengths rest
          exact ⟨.list members, rest⟩
      | _ => cases feeds
  | entity e =>
      cases b with
      | entity f =>
          simp only [hashFeed, List.cons_append, List.cons.injEq] at feeds
          obtain ⟨rfl, rest⟩ := EntityRef.eq_of_feeds feeds.2
          exact ⟨.entity e, rest⟩
      | _ => cases feeds
  | item s =>
      cases b with
      | item t =>
          simp only [hashFeed, List.cons_append, List.cons.injEq] at feeds
          obtain ⟨rfl, rest⟩ := ItemStack.eq_of_feeds feeds.2
          exact ⟨.item s, rest⟩
      | _ => cases feeds
  | pattern signature =>
      cases b with
      | pattern other =>
          cases feeds
          exact ⟨.pattern signature, rfl⟩
      | _ => cases feeds
  | garbage =>
      cases b with
      | garbage =>
          cases feeds
          exact ⟨.garbage, rfl⟩
      | _ => cases feeds
termination_by sizeOf a

theorem sameAll_of_feeds {as bs : List Iota} {more others : List HashWord}
    (lengths : as.length = bs.length)
    (feeds : hashFeedAll as ++ more = hashFeedAll bs ++ others) :
    List.Forall₂ SameAs as bs ∧ more = others := by
  cases as with
  | nil =>
      cases bs with
      | nil => exact ⟨.nil, feeds⟩
      | cons b bs => cases lengths
  | cons a as =>
      cases bs with
      | nil => cases lengths
      | cons b bs =>
          simp only [hashFeedAll, List.append_assoc] at feeds
          obtain ⟨first, rest⟩ := same_of_feeds feeds
          obtain ⟨members, rest⟩ := sameAll_of_feeds (Nat.succ.inj lengths) rest
          exact ⟨.cons first members, rest⟩
termination_by sizeOf as

end

theorem hashFeed_eq_iff_same {a b : Iota} : a.hashFeed = b.hashFeed ↔ a.SameAs b := by
  constructor
  · intro feeds
    exact (same_of_feeds (congrArg (· ++ []) feeds)).1
  · intro same
    rw [same.eq]

/-- Iotas up to exact equality. -/
instance setoid : Setoid Iota where
  r a b := (a == b) = true
  iseqv := ⟨fun _ => BEq.rfl, BEq.symm, BEq.trans⟩

/-- The classes to which some iotas belong. -/
def classes (iotas : List Iota) : Set (Quotient setoid) :=
  {c | ∃ i ∈ iotas, Quotient.mk setoid i = c}

theorem classes_subset {first second : List Iota}
    (found : ∀ probe, first.contains probe = true → second.contains probe = true) :
    classes first ⊆ classes second := by
  rintro _ ⟨i, member, rfl⟩
  obtain ⟨other, there, equal⟩ := List.contains_iff_exists_mem_beq.mp
    (found i (List.contains_iff_exists_mem_beq.mpr ⟨i, member, BEq.rfl⟩))
  exact ⟨other, there, (Quotient.sound equal).symm⟩

theorem ncard_classes {iotas : List Iota} (distinct : iotas.Pairwise fun a b => (a == b) = false) :
    (classes iotas).ncard = iotas.length := by
  classical
  have nodup : (iotas.map (Quotient.mk setoid)).Nodup := by
    refine List.pairwise_map.mpr (distinct.imp fun apart same => ?_)
    have equal : _ = true := Quotient.exact same
    rw [apart] at equal
    cases equal
  have counted : classes iotas = (iotas.map (Quotient.mk setoid)).toFinset := by
    ext c
    simp only [classes, Set.mem_ofPred_eq, List.coe_toFinset, List.mem_map]
  rw [counted, Set.ncard_coe_finset, List.toFinset_card_of_nodup nodup, List.length_map]

/-- A hash set that has one member for each class of some iotas and in which exactly the iotas equal
to one of these are found. -/
structure Gathers [Hashable Iota] (set : Std.HashSet Iota) (iotas : List Iota) : Prop where
  size : set.size = (classes iotas).ncard
  contains : ∀ probe, set.contains probe = true ↔ ∃ i ∈ iotas, (probe == i) = true

theorem gathers_ofList [Hashable Iota] [LawfulHashable Iota] (iotas : List Iota) :
    Gathers (.ofList iotas) iotas where
  size := by
    have same : classes (Std.HashSet.ofList iotas).toList = classes iotas := by
      apply Set.Subset.antisymm <;> refine classes_subset fun probe found => ?_
      · rwa [Std.HashSet.contains_toList, Std.HashSet.contains_ofList] at found
      · rwa [Std.HashSet.contains_toList, Std.HashSet.contains_ofList]
    rw [← Std.HashSet.length_toList, ← ncard_classes Std.HashSet.distinct_toList, same]
  contains probe := by
    rw [Std.HashSet.contains_ofList]
    exact List.contains_iff_exists_mem_beq

theorem Gathers.of_perm [Hashable Iota] {set : Std.HashSet Iota} {inserted iotas : List Iota}
    (gathers : Gathers set inserted) (order : inserted.Perm iotas) : Gathers set iotas where
  size := by
    rw [gathers.size]
    simp only [classes, order.mem_iff]
  contains probe := by
    rw [gathers.contains]
    simp only [order.mem_iff]

/-- Hashing by the words that an iota feeds to a hash function. -/
abbrev hashableBy (hash : List HashWord → UInt64) : Hashable Iota := ⟨fun i => hash i.hashFeed⟩

theorem lawfulHashableBy (hash : List HashWord → UInt64) :
    @LawfulHashable Iota _ (hashableBy hash) :=
  @LawfulHashable.mk Iota _ (hashableBy hash) fun _ _ equal =>
    congrArg hash (hashFeed_eq_iff_same.mpr (beq_iff_same.mp equal))

theorem gathers_toSet (iotas : List Iota) : Gathers (toSet iotas) iotas :=
  @gathers_ofList _ (lawfulHashableBy _) iotas

end Iota

/-- Equality and hashing agree at every depth. Exact equality is an equivalence, it holds between
iotas of one kind with the same content, doubles compared by their bits, and the iotas that are
equal are those that feed the same words to a hash function. So whatever the function and the order,
a hash set of some iotas has one member for each class of them and finds the iotas that are equal to
one of them. -/
theorem equality_and_hashing_agree :
    Equivalence (fun a b : Iota => (a == b) = true) ∧
    (∀ a b : Iota, (a == b) = true ↔ a.SameAs b) ∧
    (∀ a b : Iota, (a == b) = true ↔ a.hashFeed = b.hashFeed) ∧
    ∀ iotas inserted : List Iota, inserted.Perm iotas →
      Iota.Gathers (Iota.toSet inserted) iotas ∧
      ∀ hash, @Iota.Gathers (Iota.hashableBy hash)
        (@Std.HashSet.ofList Iota _ (Iota.hashableBy hash) inserted) iotas := by
  refine ⟨Iota.setoid.iseqv, fun a b => Iota.beq_iff_same, fun a b => ?_, ?_⟩
  · rw [Iota.beq_iff_same, Iota.hashFeed_eq_iff_same]
  · intro iotas inserted order
    refine ⟨(Iota.gathers_toSet inserted).of_perm order, fun hash => ?_⟩
    have gathers :=
      @Iota.gathers_ofList (Iota.hashableBy hash) (Iota.lawfulHashableBy hash) inserted
    exact @Iota.Gathers.of_perm (Iota.hashableBy hash) _ _ _ gathers order

/-- A vector with a component that is no number is equal to itself also inside a list, and counts
once. The two zeros count twice, and so do two patterns of bits that are no number. -/
theorem zeros_are_two_and_no_number_is_one :
    let odd : Iota := .list [.vec3 ⟨0, .nan, 0⟩]
    let turned : Iota := .list [.vec3 ⟨0, -.nan, 0⟩]
    let iotas := [odd, .double 0, odd, .double (-0), turned]
    iotas.reverse.Perm iotas ∧ (odd == odd) = true ∧ odd.hashFeed = odd.hashFeed ∧
      Double.nan.toFloat = (-Double.nan).toFloat ∧ odd.hashFeed ≠ turned.hashFeed ∧
      (Iota.toSet iotas.reverse).size = 4 ∧ (Iota.toSet iotas.reverse).contains odd = true ∧
      (Iota.toSet iotas.reverse).contains (.double .nan) = false := by
  intro odd turned iotas
  obtain ⟨-, -, feed, sets⟩ := equality_and_hashing_agree
  have order : iotas.reverse.Perm iotas := iotas.reverse_perm
  have equal : (odd == odd) = true := by decide +kernel
  have apart : ¬ (odd == turned) = true := by decide +kernel
  obtain ⟨gathers, -⟩ := sets iotas iotas.reverse order
  have once : Iota.classes iotas =
      Iota.classes [odd, .double 0, .double (-0), turned] := by
    ext c
    simp only [Iota.classes, iotas, Set.mem_ofPred_eq, List.mem_cons, List.not_mem_nil, or_false]
    grind
  refine ⟨order, equal, (feed odd odd).mp equal, by rfl, mt (feed odd turned).mpr apart, ?_, ?_, ?_⟩
  · rw [gathers.size, once, Iota.ncard_classes (by decide +kernel)]
    rfl
  · exact (gathers.contains odd).mpr ⟨odd, List.mem_cons_self, equal⟩
  · refine Bool.eq_false_iff.mpr fun found => ?_
    obtain ⟨i, member, same⟩ := (gathers.contains _).mp found
    have absent : ∀ i ∈ iotas, ((.double .nan : Iota) == i) = false := by decide +kernel
    rw [absent i member] at same
    cases same

end Spellcasting

import Mathlib.Data.List.Forall2
import Spellcasting.Serial.Rules

/-! # Objects as sets of members

The order in which an object lists its members says nothing: trees that differ in it alone are the
same, and have the same subtrees at every place. A reader of fields goes by their names, so it gives
one answer for all trees that are the same.
-/

namespace Spellcasting

namespace Tree

/-- Trees that differ at most in the order of members. -/
inductive Same : Tree → Tree → Prop
  | refl (t : Tree) : Same t t
  | array {as bs : List Tree} (elements : List.Forall₂ Same as bs) : Same (array as) (array bs)
  | object {as bs : List (String × Tree)} (distinct : (as.map (·.1)).Nodup)
      (members : ∀ key, Option.Rel Same (as.lookup key) (bs.lookup key)) :
      Same (object as) (object bs)

/-- Members of the same names and the same trees. -/
def SameMembers (as bs : List (String × Tree)) : Prop :=
  ∀ key, Option.Rel Same (as.lookup key) (bs.lookup key)

/-- What leads from a tree to one that it is made of. -/
inductive Key where
  | field (name : String)
  | index (n : Nat)

/-- Where a part of a tree stands: the keys that lead there. -/
abbrev Place := List Key

def child? : Tree → Key → Option Tree
  | object members, .field name => members.lookup name
  | array elements, .index n => elements[n]?
  | _, _ => none

/-- The part of a tree at a place. -/
def at? (t : Tree) : Place → Option Tree
  | [] => some t
  | key :: place => (t.child? key).bind fun part => part.at? place

theorem depth_le_depthMembers {t : Tree} {key : String} {members : List (String × Tree)}
    (found : members.lookup key = some t) : t.depth ≤ depthMembers members := by
  induction members with
  | nil => cases found
  | cons member rest ih =>
      obtain ⟨name, u⟩ := member
      rw [List.lookup_cons] at found
      split at found
      · cases found
        exact Nat.le_max_left ..
      · exact Nat.le_trans (ih found) (Nat.le_max_right ..)

theorem depthAll_le_of_lookup {key : String} {members : List (String × Tree)} {elements : List Tree}
    {levels : Nat} (found : members.lookup key = some (array elements))
    (inside : (object members).depth ≤ levels + 1) : depthAll elements ≤ levels :=
  calc
    depthAll elements ≤ (array elements).depth := Nat.le_succ _
    _ ≤ depthMembers members := depth_le_depthMembers found
    _ ≤ levels := Nat.le_of_succ_le_succ inside

theorem lookup_of_perm {as bs : List (String × Tree)} {key : String} (perm : as.Perm bs)
    (distinct : (as.map (·.1)).Nodup) : as.lookup key = bs.lookup key := by
  induction perm with
  | nil => rfl
  | cons member _ ih =>
      rw [List.lookup_cons, List.lookup_cons, ih (List.nodup_cons.mp distinct).2]
  | swap first second rest =>
      obtain ⟨name, t⟩ := first
      obtain ⟨other, u⟩ := second
      by_cases found : key = name
      · subst found
        have different : key ≠ other := by
          intro one_key
          exact (List.nodup_cons.mp distinct).1 (List.mem_cons.mpr (.inl one_key.symm))
        simp only [List.lookup_cons, BEq.rfl, beq_eq_false_iff_ne.mpr different]
      · simp only [List.lookup_cons, beq_eq_false_iff_ne.mpr found]
  | trans perm _ ih more =>
      exact (ih distinct).trans (more ((perm.map _).nodup_iff.mp distinct))

namespace Same

variable {t u : Tree}

theorem eq_of_leaf (same : t.Same u) (leaf : u.depth = 0) : t = u := by
  cases same with
  | refl => rfl
  | array elements => cases leaf
  | object distinct members => cases leaf

theorem rel_refl : ∀ part : Option Tree, Option.Rel Same part part
  | none => .none
  | some t => .some (.refl t)

theorem of_rel_some {part : Option Tree} (rel : Option.Rel Same part (some u)) :
    ∃ t, part = some t ∧ t.Same u := by
  cases rel with
  | some same => exact ⟨_, rfl, same⟩

theorem rel_getElem? {as bs : List Tree} (same : List.Forall₂ Same as bs) (n : Nat) :
    Option.Rel Same as[n]? bs[n]? := by
  induction same generalizing n with
  | nil => exact .none
  | cons first rest ih =>
      cases n with
      | zero => exact .some first
      | succ n => exact ih n

theorem array_right {bs : List Tree} (same : t.Same (.array bs)) :
    ∃ as, t = .array as ∧ List.Forall₂ Same as bs := by
  cases same with
  | refl => exact ⟨bs, rfl, List.forall₂_same.mpr fun b _ => .refl b⟩
  | array elements => exact ⟨_, rfl, elements⟩

theorem object_right {bs : List (String × Tree)} (same : t.Same (.object bs)) :
    ∃ as, t = .object as ∧ SameMembers as bs := by
  cases same with
  | refl => exact ⟨bs, rfl, fun key => rel_refl _⟩
  | object distinct members => exact ⟨_, rfl, members⟩

theorem of_perm {as bs : List (String × Tree)} (perm : as.Perm bs)
    (distinct : (as.map (·.1)).Nodup) : Same (.object as) (.object bs) := by
  refine .object distinct fun key => ?_
  rw [lookup_of_perm perm distinct]
  exact rel_refl _

theorem child? (same : t.Same u) (key : Key) : Option.Rel Same (t.child? key) (u.child? key) := by
  cases same with
  | refl => exact rel_refl _
  | array elements =>
      cases key with
      | field name => exact .none
      | index n => exact rel_getElem? elements n
  | object distinct members =>
      cases key with
      | field name => exact members name
      | index n => exact .none

theorem at? (same : t.Same u) (place : Place) : Option.Rel Same (t.at? place) (u.at? place) := by
  induction place generalizing t u with
  | nil => exact .some same
  | cons key place ih =>
      unfold Tree.at?
      have child := same.child? key
      generalize t.child? key = part, u.child? key = same_part at child
      cases child with
      | none => exact .none
      | some part => exact ih part

theorem null_at {place : Place} (same : t.Same u) (written : u.at? place = some .null) :
    t.at? place = some .null := by
  have part := same.at? place
  rw [written] at part
  obtain ⟨leaf, there, same⟩ := of_rel_some part
  rw [there, same.eq_of_leaf rfl]

end Same

/-- A reader gives one answer for all trees that are the same as the one written. -/
def Reads {α : Type} (read : Tree → Option α) (written : Tree) (answer : Option α) : Prop :=
  ∀ t, t.Same written → read t = answer

theorem Reads.leaf {α : Type} {read : Tree → Option α} {written : Tree} {answer : Option α}
    (leaf : written.depth = 0) (reads : read written = answer) : Reads read written answer := by
  intro t same
  rw [same.eq_of_leaf leaf, reads]

namespace SameMembers

variable {α : Type} {as bs : List (String × Tree)} {written : Tree}
  {read : Tree → Option α} {answer : Option α}

theorem lookup_some (same : SameMembers as bs) (name : String)
    (found : bs.lookup name = some written) : ∃ t, as.lookup name = some t ∧ t.Same written := by
  have part := same name
  rw [found] at part
  exact Same.of_rel_some part

theorem lookup_none (same : SameMembers as bs) (name : String) (absent : bs.lookup name = none) :
    as.lookup name = none := by
  have part := same name
  rw [absent] at part
  generalize as.lookup name = there at part
  cases part with
  | none => rfl

theorem required (same : SameMembers as bs) (name : String) (place : Nat)
    (found : bs.lookup name = some written) (reads : Reads read written answer) :
    (Record.named as).required name place read = answer := by
  obtain ⟨t, there, part⟩ := same.lookup_some name found
  rw [Record.required, Record.field?, there, Option.bind_some, reads t part]

theorem defaulted (same : SameMembers as bs) (name : String) (place : Nat) (value : α)
    (found : bs.lookup name = some written) (reads : Reads read written answer) :
    (Record.named as).defaulted name place value read = answer := by
  obtain ⟨t, there, part⟩ := same.lookup_some name found
  simp only [Record.defaulted, Record.field?, there, reads t part]

theorem defaulted_absent (same : SameMembers as bs) (name : String) (place : Nat) (value : α)
    (absent : bs.lookup name = none) :
    (Record.named as).defaulted name place value read = some value := by
  simp only [Record.defaulted, Record.field?, same.lookup_none name absent]

end SameMembers

end Tree

end Spellcasting

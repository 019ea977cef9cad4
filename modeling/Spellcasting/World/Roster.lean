import Spellcasting.Environment

/-! # The roster of a world

The entities of a world in the order in which they came, no two of one identity. Entities are found,
changed, added and removed by identity.
-/

namespace Spellcasting

/-- The entities of a world. -/
structure Roster where
  entries : List EntityState
  distinct : (entries.map fun e => e.ref.id).Nodup
  deriving DecidableEq

namespace Roster

def empty : Roster := ⟨[], List.nodup_nil⟩

/-- The entity of an identity. -/
def find? (r : Roster) (id : EntityId) : Option EntityState := r.entries.find? (·.ref.id = id)

/-- Changes what may change of an entity: where it is, whether it lives and what it carries. -/
structure Edit where
  position : Vec3 → Vec3 := fun p => p
  alive : Bool → Bool := fun a => a
  item : Option ItemStack → Option ItemStack := fun s => s

/-- An entity after an edit; who it is stays. -/
def Edit.apply (edit : Edit) (e : EntityState) : EntityState :=
  ⟨e.ref, edit.position e.position, edit.alive e.alive, edit.item e.item⟩

/-- Edits the entity of an identity, if there is one. -/
def edit (r : Roster) (id : EntityId) (change : Edit) : Roster :=
  ⟨r.entries.map fun e => if e.ref.id = id then change.apply e else e, by
    have : (fun e : EntityState => (if e.ref.id = id then change.apply e else e).ref.id) =
        fun e => e.ref.id := by
      funext e
      split <;> rfl
    simpa [Function.comp_def, this] using r.distinct⟩

/-- Removes the entity of an identity, if there is one. -/
def erase (r : Roster) (id : EntityId) : Roster :=
  ⟨r.entries.filter (·.ref.id ≠ id), r.distinct.sublist (List.filter_sublist.map _)⟩

/-- Adds an entity, in place of the one that had its identity. -/
def insert (r : Roster) (e : EntityState) : Roster :=
  ⟨(r.erase e.ref.id).entries ++ [e], by
    have fresh : ∀ a ∈ (r.erase e.ref.id).entries, a.ref.id ≠ e.ref.id := by
      intro a ha
      simpa [erase] using (List.mem_filter.mp ha).2
    simp only [List.map_append, List.map_cons, List.map_nil]
    refine List.nodup_append.mpr ⟨(r.erase e.ref.id).distinct, by simp, ?_⟩
    intro a ha b hb
    obtain ⟨x, hx, rfl⟩ := List.mem_map.mp ha
    simp only [List.mem_singleton] at hb
    exact hb ▸ fresh x hx⟩

@[simp] theorem find?_empty (id : EntityId) : empty.find? id = none := rfl

/-- What is found under an identity has it. -/
theorem id_of_find? {r : Roster} {id : EntityId} {e : EntityState} (h : r.find? id = some e) :
    e.ref.id = id := by
  simpa using List.find?_some h

@[simp] theorem find?_edit (r : Roster) (id other : EntityId) (change : Edit) :
    (r.edit id change).find? other =
      if other = id then (r.find? other).map change.apply else r.find? other := by
  have same (e : EntityState) :
      (if e.ref.id = id then change.apply e else e).ref.id = e.ref.id := by split <;> rfl
  show (r.entries.map _).find? _ = _
  rw [List.find?_map]
  simp only [Function.comp_def, same]
  change (r.find? other).map _ = _
  cases h : r.find? other with
  | none => simp
  | some e =>
    have := id_of_find? h
    by_cases hid : other = id <;> simp [this, hid]

@[simp] theorem find?_erase (r : Roster) (id other : EntityId) :
    (r.erase id).find? other = if other = id then none else r.find? other := by
  unfold find? erase
  rw [List.find?_filter]
  split
  · next h =>
    subst h
    simp
  · next h =>
    congr 1
    funext e
    by_cases he : e.ref.id = other <;> simp [he, h]

@[simp] theorem find?_insert (r : Roster) (e : EntityState) (id : EntityId) :
    (r.insert e).find? id = if id = e.ref.id then some e else r.find? id := by
  have h : (r.insert e).find? id =
      ((r.erase e.ref.id).find? id).or ([e].find? (·.ref.id = id)) := List.find?_append
  rw [h, find?_erase]
  by_cases hid : id = e.ref.id
  · simp [hid]
  · simp [hid, Ne.symm hid]

/-- How many entities are alive. -/
def livingCount (r : Roster) : Nat := r.entries.countP (·.alive)

end Roster

end Spellcasting

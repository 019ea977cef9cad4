import Spellcasting.Proofs.Identities

/-! # What scenarios are prepared to

A scenario is prepared unless two of its entities share a name or a step of its program names what
is not there; of all such faults the first is reported, those of the entities before those of the
program. The prepared scenario is the one described: its entities stand in the world in their order,
each found under its name, its capabilities hide the stock ones, and every step is looked up.
-/

namespace Spellcasting

namespace EntitySpec

/-- The reference of an entity that has been given an identity. -/
def ref (spec : EntitySpec) (id : EntityId) : EntityRef := ⟨id, spec.kind, spec.name⟩

/-- What an entity carries: a stack lying in the world its item, any other entity nothing. -/
def carries (spec : EntitySpec) : Option ItemStack :=
  if spec.kind = .item then some (spec.item.getD .empty) else none

/-- An entity as the world shall know it. -/
def state (spec : EntitySpec) (id : EntityId) : EntityState :=
  ⟨spec.ref id, spec.position, spec.alive, spec.carries⟩

/-- The name of an entity and what it stands for. -/
def naming (spec : EntitySpec) (id : EntityId) : String × EntityRef := (spec.name, spec.ref id)

/-- An entity as an outcome shows it. -/
def summary (spec : EntitySpec) : EntitySummary := ⟨spec.name, spec.alive, spec.carries⟩

/-- What is made of some entities and their identities, the first of them being the one of the given
number. -/
def placed {α : Type} (make : EntitySpec → EntityId → α) (ids : Nat → EntityId) (start : Nat)
    (specs : List EntitySpec) : List α :=
  (specs.zipIdx start).map fun (spec, place) => make spec (ids place)

section

variable {α β : Type} {make : EntitySpec → EntityId → α} {ids : Nat → EntityId} {start : Nat}
  {specs : List EntitySpec}

theorem map_placed (f : α → β) :
    (placed make ids start specs).map f =
      placed (fun spec id => f (make spec id)) ids start specs :=
  List.map_map

theorem placed_const (ids : Nat → EntityId) (start : Nat) (f : EntitySpec → α) :
    placed (fun spec _ => f spec) ids start specs = specs.map f := by
  have alone : (fun (pair : EntitySpec × Nat) => f pair.1) = f ∘ Prod.fst := rfl
  change (specs.zipIdx start).map (fun pair => f pair.1) = _
  rw [alone, ← List.map_map, List.zipIdx_map_fst]

theorem mem_placed {a : α} :
    a ∈ placed make ids 0 specs ↔
      ∃ place spec, specs[place]? = some spec ∧ make spec (ids place) = a := by
  constructor
  · intro member
    obtain ⟨⟨spec, place⟩, there, made⟩ := List.mem_map.mp member
    exact ⟨place, spec, List.mem_zipIdx_iff_getElem?.mp there, made⟩
  · rintro ⟨place, spec, there, made⟩
    exact List.mem_map.mpr ⟨(spec, place), List.mem_zipIdx_iff_getElem?.mpr there, made⟩

theorem names_placed : (placed naming ids start specs).map (·.1) = specs.map (·.name) := by
  rw [map_placed]
  exact placed_const ids start _

theorem nodup_placed (distinct : Set.InjOn ids (Set.Iio specs.length)) :
    ((placed state ids 0 specs).map (·.ref.id)).Nodup := by
  rw [map_placed]
  refine List.Nodup.map_on ?_ ?_
  · rintro ⟨spec, place⟩ there ⟨other, place'⟩ there' same
    have here := List.mem_zipIdx_iff_getElem?.mp there
    have here' := List.mem_zipIdx_iff_getElem?.mp there'
    obtain ⟨inside, -⟩ := List.getElem?_eq_some_iff.mp here
    obtain ⟨inside', -⟩ := List.getElem?_eq_some_iff.mp here'
    obtain rfl : place = place' := distinct inside inside' same
    exact congrArg (·, place) (Option.some.inj (here.symm.trans here'))
  · refine List.Nodup.of_map Prod.snd ?_
    rw [List.zipIdx_map_snd]
    exact List.nodup_range'

end

end EntitySpec

/-! ## Names that are given twice -/

/-- The first name, in order, that has been there before. -/
def FirstRepeat (names : List String) (name : String) : Prop :=
  ∃ before after, names = before ++ name :: after ∧ before.Nodup ∧ name ∈ before

theorem FirstRepeat.not_nodup {names : List String} {name : String}
    (again : FirstRepeat names name) : ¬ names.Nodup := by
  obtain ⟨before, after, rfl, -, member⟩ := again
  exact fun nodup => List.disjoint_of_nodup_append nodup member List.mem_cons_self

theorem exists_firstRepeat {names : List String} (repeats : ¬ names.Nodup) :
    ∃ name, FirstRepeat names name := by
  induction names using List.reverseRecOn with
  | nil => exact absurd List.nodup_nil repeats
  | append_singleton names last ih =>
      by_cases nodup : names.Nodup
      · refine ⟨last, names, [], rfl, nodup, ?_⟩
        by_contra fresh
        exact repeats (List.nodup_append.mpr ⟨nodup, List.nodup_singleton last,
          fun a member b only same => fresh (List.mem_singleton.mp only ▸ same ▸ member)⟩)
      · obtain ⟨name, before, after, rfl, found⟩ := ih nodup
        exact ⟨name, before, after ++ [last], List.append_assoc .., found⟩

theorem lookup_isSome_iff_mem {α : Type} {named : List (String × α)} {name : String} :
    (named.lookup name).isSome = true ↔ name ∈ named.map (·.1) := by
  rw [List.lookup_isSome_iff, List.mem_map]
  exact exists_congr fun pair => and_congr_right fun _ => beq_iff_eq.trans eq_comm

theorem lookup_of_mem {α : Type} {named : List (String × α)} {name : String} {a : α}
    (once : (named.map (·.1)).Nodup) (member : (name, a) ∈ named) :
    named.lookup name = some a := by
  obtain ⟨before, after, rfl⟩ := List.append_of_mem member
  refine List.lookup_eq_some_iff.mpr ⟨before, after, rfl, fun pair earlier => bne_iff_ne.mpr ?_⟩
  rw [List.map_append] at once
  rintro rfl
  exact List.disjoint_of_nodup_append once (List.mem_map_of_mem earlier) List.mem_cons_self

/-! ## Entities -/

open EntitySpec (placed naming state)

namespace Roster

theorem entries_insert {r : Roster} {e : EntityState}
    (fresh : e.ref.id ∉ r.entries.map (·.ref.id)) : (r.insert e).entries = r.entries ++ [e] := by
  change r.entries.filter _ ++ [e] = _
  rw [List.filter_eq_self.mpr]
  intro other member
  exact decide_eq_true fun same => fresh (List.mem_map.mpr ⟨other, member, same⟩)

theorem edit_insert (r : Roster) (e : EntityState) (change : Edit) :
    (r.insert e).edit e.ref.id change = r.insert (change.apply e) := by
  have others : (r.erase e.ref.id).entries.map
      (fun other => if other.ref.id = e.ref.id then change.apply other else other) =
        (r.erase e.ref.id).entries := by
    refine (List.map_congr_left fun other member => if_neg ?_).trans (List.map_id _)
    exact of_decide_eq_true (List.mem_filter.mp member).2
  simp only [edit, insert, List.map_append, others, List.map_cons, List.map_nil, if_true]
  rfl

end Roster

namespace Scenario

section

variable {ids : Nat → EntityId} {w : World} {named : List (String × EntityRef)}

theorem spawn_eq (spec : EntitySpec) (id : EntityId) (w : World) :
    spawn spec id w = ({ w with roster := w.roster.insert (spec.state id) }, spec.ref id) := by
  obtain ⟨name, kind, position, item, alive⟩ := spec
  cases alive <;> cases kind <;>
    first
      | rfl
      | exact Prod.ext (congrArg (fun roster => { w with roster }) (Roster.edit_insert ..)) rfl

theorem spawnAll_cons {spec : EntitySpec} {rest : List EntitySpec}
    (new : spec.name ∉ named.map (·.1)) :
    spawnAll ids w named (spec :: rest) =
      spawnAll ids { w with roster := w.roster.insert (spec.state (ids named.length)) }
        (named ++ [spec.naming (ids named.length)]) rest := by
  rw [spawnAll, if_neg (mt lookup_isSome_iff_mem.mp new), spawn_eq]
  rfl

theorem names_cons (named : List (String × EntityRef)) (spec : EntitySpec) (id : EntityId)
    (rest : List EntitySpec) :
    (named ++ [spec.naming id]).map (·.1) ++ rest.map (·.name) =
      named.map (·.1) ++ (spec :: rest).map (·.name) := by
  rw [List.map_append, List.append_assoc]
  rfl

/-- Entities whose names are new come into the world one after the other. -/
theorem spawnAll_ok (ids : Nat → EntityId) (w : World) {specs : List EntitySpec}
    (once : (named.map (·.1) ++ specs.map (·.name)).Nodup) :
    ∃ roster, spawnAll ids w named specs =
        .ok ({ w with roster }, named ++ placed naming ids named.length specs) ∧
      (((w.roster.entries ++ placed state ids named.length specs).map (·.ref.id)).Nodup →
        roster.entries = w.roster.entries ++ placed state ids named.length specs) := by
  -- names alone decide that all come; only if identities repeat, one may take the place of another
  induction specs generalizing w named with
  | nil =>
      refine ⟨w.roster, ?_, fun _ => (List.append_nil _).symm⟩
      exact congrArg (fun named => Except.ok (w, named)) (List.append_nil named).symm
  | cons spec rest ih =>
      have new : spec.name ∉ named.map (·.1) := fun known =>
        List.disjoint_of_nodup_append once known List.mem_cons_self
      rw [← names_cons named spec (ids named.length)] at once
      obtain ⟨roster, spawned, entries⟩ :=
        ih { w with roster := w.roster.insert (spec.state (ids named.length)) } once
      simp only [List.length_append, List.length_singleton, List.append_assoc] at spawned entries
      refine ⟨roster, (spawnAll_cons new).trans spawned, fun distinct => ?_⟩
      have fresh : (spec.state (ids named.length)).ref.id ∉ w.roster.entries.map (·.ref.id) := by
        rw [List.map_append] at distinct
        exact fun known => List.disjoint_of_nodup_append distinct known List.mem_cons_self
      rw [Roster.entries_insert fresh, List.append_assoc] at entries
      exact entries distinct

theorem spawnAll_repeat {before after : List EntitySpec} {spec : EntitySpec}
    (once : (named.map (·.1) ++ before.map (·.name)).Nodup)
    (again : spec.name ∈ named.map (·.1) ++ before.map (·.name)) :
    spawnAll ids w named (before ++ spec :: after) = .error (.duplicateEntity spec.name) := by
  induction before generalizing w named with
  | nil =>
      rw [List.map_nil, List.append_nil] at again
      rw [List.nil_append, spawnAll, if_pos (lookup_isSome_iff_mem.mpr again)]
  | cons first rest ih =>
      have new : first.name ∉ named.map (·.1) := fun known =>
        List.disjoint_of_nodup_append once known List.mem_cons_self
      rw [← names_cons named first (ids named.length)] at once again
      exact (spawnAll_cons new).trans (ih once again)

end

end Scenario

/-! ## Steps -/

namespace StockOperator

theorem resolve_name (op : StockOperator) : resolve op.name = .ok op := by cases op <;> rfl

theorem resolve_unregistered {name : String} (unknown : ∀ op : StockOperator, op.name ≠ name) :
    resolve name = .error (.invalidPattern name) := by
  have absent : lookup? name = none :=
    List.find?_eq_none.mpr fun op _ named => unknown op (of_decide_eq_true named)
  rw [resolve, absent]

end StockOperator

namespace Scenario

/-- The names of the entities, in order. -/
def names (s : Scenario) : List String := s.entities.map (·.name)

/-- What a step stands for once the entities have their identities. -/
inductive Means (s : Scenario) (ids : Nat → EntityId) :
    ScenarioStep → Instruction StockOperator → Prop where
  | push (iota) : Means s ids (.push iota) (.literal iota)
  | entity {place} {spec : EntitySpec} (there : s.entities[place]? = some spec) :
      Means s ids (.entity spec.name) (.literal (.entity (spec.ref (ids place))))
  | op (op : StockOperator) : Means s ids (.op op.name) (.operator op)

/-- What is wrong with the step of a program at an index. -/
inductive Faults (s : Scenario) (index : Nat) : ScenarioStep → ScenarioFault → Prop where
  | entity {name} (undefined : name ∉ s.names) :
      Faults s index (.entity name) (.unknownEntity index name)
  | op {name} (unregistered : ∀ op : StockOperator, op.name ≠ name) :
      Faults s index (.op name) (.pattern index (.invalidPattern name))

/-- A step that names what is not there. -/
def Dangles (s : Scenario) (step : ScenarioStep) : Prop := ∃ index fault, s.Faults index step fault

/-- What is wrong with the first step of the program that dangles. -/
def FirstFault (s : Scenario) (fault : ScenarioFault) : Prop :=
  ∃ before step after, s.program = before ++ step :: after ∧
    (∀ earlier ∈ before, ¬ s.Dangles earlier) ∧ s.Faults before.length step fault

section

variable {s : Scenario} {ids : Nat → EntityId} {step : ScenarioStep} {index : Nat}

theorem names_named : (placed naming ids 0 s.entities).map (·.1) = s.names :=
  EntitySpec.names_placed

theorem Dangles.faults (dangles : s.Dangles step) (index : Nat) :
    ∃ fault, s.Faults index step fault := by
  obtain ⟨_, _, faults⟩ := dangles
  cases faults with
  | entity undefined => exact ⟨_, .entity undefined⟩
  | op unregistered => exact ⟨_, .op unregistered⟩

theorem means_or_dangles (s : Scenario) (ids : Nat → EntityId) (step : ScenarioStep) :
    (∃ instruction, s.Means ids step instruction) ∨ s.Dangles step := by
  cases step with
  | push iota => exact .inl ⟨_, .push iota⟩
  | entity name =>
      by_cases defined : name ∈ s.names
      · obtain ⟨spec, member, rfl⟩ := List.mem_map.mp defined
        obtain ⟨place, there⟩ := List.getElem?_of_mem member
        exact .inl ⟨_, .entity there⟩
      · exact .inr ⟨0, _, .entity defined⟩
  | op name =>
      by_cases registered : ∃ op : StockOperator, op.name = name
      · obtain ⟨op, rfl⟩ := registered
        exact .inl ⟨_, .op op⟩
      · exact .inr ⟨0, _, .op fun op named => registered ⟨op, named⟩⟩

theorem resolveStep_of_means {instruction : Instruction StockOperator} (once : s.names.Nodup)
    (means : s.Means ids step instruction) (index : Nat) :
    resolveStep (placed naming ids 0 s.entities) index step = .ok instruction := by
  cases means with
  | push iota => rfl
  | @entity place spec there =>
      have known : (spec.name, spec.ref (ids place)) ∈ placed naming ids 0 s.entities :=
        EntitySpec.mem_placed.mpr ⟨place, spec, there, rfl⟩
      simp only [resolveStep, lookup_of_mem (names_named.symm ▸ once) known]
  | op op => simp only [resolveStep, op.resolve_name]

theorem resolveStep_of_faults {fault : ScenarioFault} (faults : s.Faults index step fault) :
    resolveStep (placed naming ids 0 s.entities) index step = .error fault := by
  cases faults with
  | @entity name undefined =>
      have absent : (placed naming ids 0 s.entities).lookup name = none := by
        rw [← Option.not_isSome_iff_eq_none, lookup_isSome_iff_mem, names_named]
        exact undefined
      simp only [resolveStep, absent]
  | op unregistered => simp only [resolveStep, StockOperator.resolve_unregistered unregistered]

theorem resolveFrom_ok {steps : List ScenarioStep} (once : s.names.Nodup)
    (sound : ∀ step ∈ steps, ¬ s.Dangles step) (ids : Nat → EntityId) (index : Nat) :
    ∃ program, resolveFrom (placed naming ids 0 s.entities) index steps = .ok program ∧
      List.Forall₂ (s.Means ids) steps program := by
  induction steps generalizing index with
  | nil => exact ⟨[], rfl, .nil⟩
  | cons step rest ih =>
      obtain ⟨instruction, means⟩ :=
        (s.means_or_dangles ids step).resolve_right (sound step List.mem_cons_self)
      obtain ⟨program, resolved, others⟩ :=
        ih (fun step member => sound step (List.mem_cons_of_mem _ member)) (index + 1)
      refine ⟨instruction :: program, ?_, .cons means others⟩
      simp only [resolveFrom, resolveStep_of_means once means, resolved]

theorem resolveFrom_faults {before after : List ScenarioStep} {fault : ScenarioFault}
    (once : s.names.Nodup) (sound : ∀ earlier ∈ before, ¬ s.Dangles earlier)
    (faults : s.Faults (index + before.length) step fault) :
    resolveFrom (placed naming ids 0 s.entities) index (before ++ step :: after) =
      .error fault := by
  induction before generalizing index with
  | nil =>
      have refused : resolveStep (placed naming ids 0 s.entities) index step = .error fault :=
        resolveStep_of_faults faults
      simp only [List.nil_append, resolveFrom, refused]
  | cons first rest ih =>
      obtain ⟨instruction, means⟩ :=
        (s.means_or_dangles ids first).resolve_right (sound first List.mem_cons_self)
      rw [List.length_cons, Nat.add_comm rest.length, ← Nat.add_assoc] at faults
      have later := ih (fun step member => sound step (List.mem_cons_of_mem _ member)) faults
      simp only [List.cons_append, resolveFrom, resolveStep_of_means once means, later]

theorem exists_firstFault (dangling : ∃ step ∈ s.program, s.Dangles step) :
    ∃ fault, s.FirstFault fault := by
  classical
  obtain ⟨step, member, dangles⟩ := dangling
  obtain ⟨first, found⟩ := Option.isSome_iff_exists.mp
    (List.find?_isSome.mpr ⟨step, member, decide_eq_true dangles⟩ :
      (s.program.find? fun step => s.Dangles step).isSome = true)
  obtain ⟨dangles, before, after, parts, sound⟩ := List.find?_eq_some_iff_append.mp found
  obtain ⟨fault, faults⟩ := (of_decide_eq_true dangles).faults before.length
  refine ⟨fault, before, first, after, parts, fun earlier there => ?_, faults⟩
  simpa only [Bool.not_eq_true', decide_eq_false_iff_not] using sound earlier there

theorem FirstFault.dangling {fault : ScenarioFault} (first : s.FirstFault fault) :
    ∃ step ∈ s.program, s.Dangles step := by
  obtain ⟨before, step, after, parts, -, faults⟩ := first
  exact ⟨step, parts ▸ List.mem_append_right before List.mem_cons_self, _, fault, faults⟩

theorem FirstFault.not_duplicate {fault : ScenarioFault} (first : s.FirstFault fault)
    (name : String) : fault ≠ .duplicateEntity name := by
  rintro rfl
  obtain ⟨_, _, _, _, _, faults⟩ := first
  cases faults

end

/-! ## The prepared scenario -/

/-- The capability that the scenario gives an item; of several it is the last. -/
def entry? (s : Scenario) (item : ItemId) : Option MediaCapability := s.media.reverse.lookup item

theorem capability?_registry (s : Scenario) (item : ItemId) :
    s.registry.capability? item = (s.entry? item).or (MediaRegistry.stock.capability? item) := by
  have entries (media : List (ItemId × MediaCapability)) (r : MediaRegistry) :
      (media.foldl (fun r entry => r.register entry.1 entry.2) r).entries =
        media.reverse ++ r.entries := by
    induction media generalizing r with
    | nil => rfl
    | cons first rest ih =>
        rw [List.foldl_cons, ih, List.reverse_cons, List.append_assoc]
        rfl
  have registered : s.registry.entries = s.media.reverse ++ MediaRegistry.stock.entries :=
    entries s.media .stock
  rw [MediaRegistry.capability?, registered, List.lookup_append]
  rfl

end Scenario

namespace Prepared

theorem insertByName_perm (entry : String × EntityRef) (named : List (String × EntityRef)) :
    (insertByName entry named).Perm (entry :: named) := by
  induction named with
  | nil => exact .refl _
  | cons first rest ih =>
      unfold insertByName
      split
      · exact .refl _
      · exact (ih.cons first).trans (.swap entry first rest)

theorem insertByName_sorted {entry : String × EntityRef} {named : List (String × EntityRef)}
    (new : entry.1 ∉ named.map (·.1)) (sorted : named.Pairwise (·.1 < ·.1)) :
    (insertByName entry named).Pairwise (·.1 < ·.1) := by
  induction named with
  | nil => exact List.pairwise_singleton _ _
  | cons first rest ih =>
      obtain ⟨least, others⟩ := List.pairwise_cons.mp sorted
      unfold insertByName
      split
      · next before =>
          refine List.pairwise_cons.mpr ⟨fun other member => ?_, sorted⟩
          rcases List.mem_cons.mp member with rfl | later
          · exact before
          · exact String.lt_trans before (least other later)
      · next behind =>
          obtain ⟨differs, new⟩ := List.ne_and_not_mem_of_not_mem_cons new
          refine List.pairwise_cons.mpr ⟨fun other member => ?_, ih new others⟩
          have among := (insertByName_perm entry rest).mem_iff.mp member
          rcases List.mem_cons.mp among with rfl | later
          · exact Std.lt_of_le_of_ne (String.not_lt.mp behind) differs.symm
          · exact least other later

theorem byName_perm (p : Prepared) : p.byName.Perm p.named := by
  unfold byName
  induction p.named with
  | nil => exact .refl _
  | cons first rest ih => exact (insertByName_perm first _).trans (ih.cons first)

theorem byName_sorted (p : Prepared) (once : (p.named.map (·.1)).Nodup) :
    p.byName.Pairwise (·.1 < ·.1) := by
  obtain ⟨world, named, program⟩ := p
  change (named.foldr insertByName []).Pairwise (·.1 < ·.1)
  induction named with
  | nil => exact .nil
  | cons first rest ih =>
      obtain ⟨new, once⟩ := List.nodup_cons.mp once
      refine insertByName_sorted ?_ (ih once)
      exact fun known => new (((byName_perm ⟨world, rest, program⟩).map (·.1)).mem_iff.mp known)

end Prepared

namespace Scenario

/-- A prepared scenario that is as described. -/
structure Describes (s : Scenario) (ids : Nat → EntityId) (limits : Limits) (p : Prepared) :
    Prop where
  casterPosition : p.world.casterPosition = s.caster.position
  ambitRadius : p.world.ambitRadius = s.caster.ambit.getD limits.ambitRadius
  castingHand : p.world.castingHand = s.caster.castingHand
  casterMedia : p.world.casterMedia = s.caster.media
  mainHand : p.world.held .main = s.caster.mainHand.getD .empty
  offHand : p.world.held .off = s.caster.offHand.getD .empty
  capability (item : ItemId) : p.world.registry.capability? item =
    (s.entry? item).or (MediaRegistry.stock.capability? item)
  /-- The world holds one entity for each of the scenario, as it is described there. -/
  entities : p.world.roster.entries = placed state ids 0 s.entities
  /-- Each entity has its own name, and the name stands for it. -/
  named : p.named = placed naming ids 0 s.entities
  /-- There is one instruction for each step, in order. -/
  program : List.Forall₂ (s.Means ids) s.program p.program
  shownMedia : (p.summarize p.world).casterMedia = s.caster.media
  shownMain : (p.summarize p.world).mainHand = s.caster.mainHand.getD .empty
  shownOff : (p.summarize p.world).offHand = s.caster.offHand.getD .empty
  /-- Each entity is shown as it is described. -/
  shown : (p.summarize p.world).entities.Perm (s.entities.map (·.summary))
  /-- The entities are shown in the order of their names. -/
  ordered : (p.summarize p.world).entities.Pairwise (·.name < ·.name)

section

variable {s : Scenario} {ids : Nat → EntityId} {limits : Limits} {p : Prepared}

theorem summary_of_entries {w : World} (entries : w.roster.entries = placed state ids 0 s.entities)
    (named : p.named = placed naming ids 0 s.entities) :
    (p.summarize w).entities.Perm (s.entities.map (·.summary)) := by
  refine (p.byName_perm.map _).trans (List.Perm.of_eq ?_)
  rw [named, EntitySpec.map_placed, ← EntitySpec.placed_const ids 0]
  refine List.map_congr_left fun (spec, place) there => ?_
  have held : spec.state (ids place) ∈ w.roster.entries :=
    entries ▸ List.mem_map.mpr ⟨(spec, place), there, rfl⟩
  have found : w.roster.find? (ids place) = some (spec.state (ids place)) :=
    Roster.find?_of_mem held
  simp only [World.isAlive, World.entityItem?, EntitySpec.naming, EntitySpec.ref, found]
  rfl

theorem prepare_repeat {name : String} (again : FirstRepeat s.names name) :
    s.prepare ids limits = .error (.duplicateEntity name) := by
  obtain ⟨before, after, parts, once, member⟩ := again
  obtain ⟨specs, others, entities, rfl, tail⟩ := List.map_eq_append_iff.mp parts
  obtain ⟨spec, rest, rfl, rfl, -⟩ := List.map_eq_cons_iff.mp tail
  have refused : spawnAll ids (s.emptyWorld limits) [] s.entities =
      .error (.duplicateEntity spec.name) := entities ▸ spawnAll_repeat once member
  rw [prepare, refused]

/-- Once the entities are there, what comes of the preparation is what comes of looking up the
program. -/
theorem prepare_eq (once : s.names.Nodup) (ids : Nat → EntityId) (limits : Limits) :
    ∃ roster, s.prepare ids limits =
        (resolveFrom (placed naming ids 0 s.entities) 0 s.program).map
          (⟨{ s.emptyWorld limits with roster }, placed naming ids 0 s.entities, ·⟩) ∧
      (Set.InjOn ids (Set.Iio s.entities.length) →
        roster.entries = placed state ids 0 s.entities) := by
  have unnamed : (List.map (·.1) ([] : List (String × EntityRef)) ++
      s.entities.map (·.name)).Nodup := once
  obtain ⟨roster, spawned, entries⟩ := spawnAll_ok ids (s.emptyWorld limits) unnamed
  refine ⟨roster, ?_, fun distinct => entries (EntitySpec.nodup_placed distinct)⟩
  rw [prepare, spawned]
  cases resolved : resolveFrom (placed naming ids 0 s.entities) 0 s.program <;>
    simp only [List.nil_append, List.length_nil, resolved] <;> rfl

theorem prepare_faults {fault : ScenarioFault} (once : s.names.Nodup)
    (first : s.FirstFault fault) : s.prepare ids limits = .error fault := by
  obtain ⟨before, step, after, parts, sound, faults⟩ := first
  obtain ⟨roster, prepared, -⟩ := s.prepare_eq once ids limits
  rw [← Nat.zero_add before.length] at faults
  rw [prepared, parts, resolveFrom_faults once sound faults]
  rfl

theorem prepare_ok (once : s.names.Nodup) (sound : ∀ step ∈ s.program, ¬ s.Dangles step)
    (ids : Nat → EntityId) (limits : Limits) :
    ∃ p, s.prepare ids limits = .ok p ∧
      (Set.InjOn ids (Set.Iio s.entities.length) → s.Describes ids limits p) := by
  obtain ⟨roster, prepared, entries⟩ := s.prepare_eq once ids limits
  obtain ⟨program, resolved, means⟩ := resolveFrom_ok once sound ids 0
  rw [resolved] at prepared
  refine ⟨_, prepared, fun distinct => ?_⟩
  exact {
    casterPosition := rfl
    ambitRadius := rfl
    castingHand := rfl
    casterMedia := rfl
    mainHand := rfl
    offHand := rfl
    capability := s.capability?_registry
    entities := entries distinct
    named := rfl
    program := means
    shownMedia := rfl
    shownMain := rfl
    shownOff := rfl
    shown := summary_of_entries (entries distinct) rfl
    ordered := List.pairwise_map.mpr (Prepared.byName_sorted _ (names_named ▸ once)) }

theorem prepare_fault_iff (once : s.names.Nodup) {fault : ScenarioFault} :
    s.prepare ids limits = .error fault ↔ s.FirstFault fault := by
  refine ⟨fun refused => ?_, prepare_faults once⟩
  by_cases dangling : ∃ step ∈ s.program, s.Dangles step
  · obtain ⟨other, first⟩ := exists_firstFault dangling
    rw [prepare_faults once first] at refused
    cases refused
    exact first
  · obtain ⟨p, prepared, -⟩ :=
      prepare_ok once (fun step member dangles => dangling ⟨step, member, dangles⟩) ids limits
    cases prepared.symm.trans refused

theorem prepare_duplicate_iff {name : String} :
    s.prepare ids limits = .error (.duplicateEntity name) ↔ FirstRepeat s.names name := by
  refine ⟨fun refused => ?_, prepare_repeat⟩
  by_cases once : s.names.Nodup
  · exact absurd rfl (((prepare_fault_iff once).mp refused).not_duplicate name)
  · obtain ⟨other, again⟩ := exists_firstRepeat once
    rw [prepare_repeat again] at refused
    cases refused
    exact again

end

end Scenario

/-- A scenario is prepared to what it describes unless a name is given twice or a step dangles; the
first name that has been there before is reported, and else the first step that dangles. For the
world to be the one described, the identities given to the entities have to differ. -/
theorem scenarios_are_prepared_as_described (s : Scenario) (ids : Nat → EntityId)
    (limits : Limits) :
    let answer := s.prepare ids limits
    ((∃ name, answer = .error (.duplicateEntity name)) ↔ ¬ s.names.Nodup) ∧
    (∀ name, answer = .error (.duplicateEntity name) ↔ FirstRepeat s.names name) ∧
    (s.names.Nodup →
      ((∃ fault, answer = .error fault) ↔ ∃ step ∈ s.program, s.Dangles step) ∧
      (∀ fault, answer = .error fault ↔ s.FirstFault fault) ∧
      ((∀ step ∈ s.program, ¬ s.Dangles step) →
        ∃ p, answer = .ok p ∧
          (Set.InjOn ids (Set.Iio s.entities.length) → s.Describes ids limits p))) := by
  intro answer
  refine ⟨?_, fun name => Scenario.prepare_duplicate_iff, fun once => ⟨?_, fun fault =>
    Scenario.prepare_fault_iff once, fun sound => Scenario.prepare_ok once sound ids limits⟩⟩
  · constructor
    · rintro ⟨name, refused⟩
      exact (Scenario.prepare_duplicate_iff.mp refused).not_nodup
    · intro repeats
      obtain ⟨name, again⟩ := exists_firstRepeat repeats
      exact ⟨name, Scenario.prepare_repeat again⟩
  · constructor
    · rintro ⟨fault, refused⟩
      exact ((Scenario.prepare_fault_iff once).mp refused).dangling
    · intro dangling
      obtain ⟨fault, first⟩ := Scenario.exists_firstFault dangling
      exact ⟨fault, Scenario.prepare_faults once first⟩

/-- The pasture is prepared. With a second dust and a second sheep it is not, the dust being first;
nor with a goat that nobody has defined, though what it is asked to do does not exist either. -/
theorem pasture_is_prepared_as_described :
    let pasture := Scenario.pasture
    let twins := { pasture with entities := pasture.entities ++ pasture.entities }
    let strayed := { pasture with program := [.entity "Sheep", .entity "Goat", .op "graze"] }
    (∃ p, pasture.prepare EntityId.ofNat .standard = .ok p ∧
      pasture.Describes EntityId.ofNat .standard p) ∧
    twins.prepare EntityId.ofNat .standard = .error (.duplicateEntity "Dust") ∧
    strayed.prepare EntityId.ofNat .standard = .error (.unknownEntity 1 "Goat") := by
  intro pasture twins strayed
  refine ⟨?_, ?_, ?_⟩
  · obtain ⟨-, -, prepared⟩ := scenarios_are_prepared_as_described pasture EntityId.ofNat .standard
    obtain ⟨faulty, -, described⟩ := prepared (by decide)
    have accepted : (pasture.prepare EntityId.ofNat .standard).isOk = true := by decide +kernel
    obtain ⟨p, answer, describes⟩ := described fun step member dangles => by
      obtain ⟨fault, refused⟩ := faulty.mpr ⟨step, member, dangles⟩
      rw [refused] at accepted
      cases accepted
    have distinct : ∀ a < 2, ∀ b < 2, EntityId.ofNat a = EntityId.ofNat b → a = b := by decide
    exact ⟨p, answer, describes fun a ha b hb => distinct a ha b hb⟩
  · obtain ⟨-, repeats, -⟩ := scenarios_are_prepared_as_described twins EntityId.ofNat .standard
    exact (repeats "Dust").mpr ⟨["Dust", "Sheep"], ["Sheep"], rfl, by decide, by decide⟩
  · obtain ⟨-, -, prepared⟩ := scenarios_are_prepared_as_described strayed EntityId.ofNat .standard
    obtain ⟨-, reported, -⟩ := prepared (by decide)
    refine (reported _).mpr ⟨[.entity "Sheep"], _, _, rfl, ?_, .entity (by decide)⟩
    rintro earlier only ⟨_, _, faults⟩
    cases List.mem_singleton.mp only
    cases faults with
    | entity undefined => exact undefined (by decide)

end Spellcasting

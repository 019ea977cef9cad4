import Mathlib.Logic.Equiv.Fintype
import Spellcasting.Proofs.References
import Spellcasting.Proofs.RenamedCasts
import Spellcasting.Scenario.Outcome

/-! # Outcomes do not depend on identities

Whatever identities the entities of a scenario are given, as long as no two of them get the same,
preparing and running it comes to the same but for those identities. Two choices of identities are
a renaming of each other; spawning, looking up names and casting go along with it. Only a reference
that is written into the program would not be renamed.
-/

namespace Spellcasting

namespace Iota

variable {f : EntityId → EntityId}

mutual

theorem rename_bare {i : Iota} (bare : i.ids = []) : i.rename f = i := by
  cases i with
  | list items => exact congrArg list (renameAll_bare bare)
  | entity ref => cases bare
  | _ => rfl
termination_by sizeOf i

theorem renameAll_bare {items : List Iota} (bare : idsAll items = []) :
    renameAll f items = items := by
  cases items with
  | nil => rfl
  | cons i rest =>
      obtain ⟨first, others⟩ := List.append_eq_nil_iff.mp bare
      simp only [renameAll, rename_bare first, renameAll_bare others]
termination_by sizeOf items

end

end Iota

/-- What a name stands for, renamed. -/
abbrev renameNamed (f : EntityId → EntityId) : String × EntityRef → String × EntityRef :=
  Prod.map id (EntityRef.rename f)

theorem lookup_renameNamed (f : EntityId → EntityId) (named : List (String × EntityRef))
    (name : String) :
    (named.map (renameNamed f)).lookup name = (named.lookup name).map (EntityRef.rename f) := by
  induction named with
  | nil => rfl
  | cons entry rest ih =>
      obtain ⟨first, ref⟩ := entry
      simp only [List.map_cons, Prod.map_apply, id, List.lookup_cons, ih]
      cases name == first <;> rfl

def Outcome.rename (f : EntityId → EntityId) : Outcome → Outcome
  | cast report world => cast (report.rename f) world
  | mishap failure world => mishap (failure.rename f) world

section

variable (f : EntityId ↪ EntityId)

namespace World

theorem spawn_rename (w : World) (id : EntityId) (kind : EntityKind) (name : String)
    (position : Vec3) :
    (w.rename f).spawn (f id) kind name position =
      Prod.map (rename f) (EntityRef.rename f) (w.spawn id kind name position) :=
  Prod.ext (congrArg (fun roster => { w with roster })
    (w.roster.insert_rename f ⟨⟨id, kind, name⟩, position, true, none⟩)) rfl

theorem spawnItem_rename (w : World) (id : EntityId) (name : String) (position : Vec3)
    (stack : ItemStack) :
    (w.rename f).spawnItem (f id) name position stack =
      Prod.map (rename f) (EntityRef.rename f) (w.spawnItem id name position stack) :=
  Prod.ext (congrArg (fun roster => { w with roster })
    (w.roster.insert_rename f ⟨⟨id, .item, name⟩, position, true, some stack⟩)) rfl

end World

/-- A prepared scenario with the identities in it renamed. -/
def Prepared.rename (p : Prepared) : Prepared :=
  ⟨p.world.rename f, p.named.map (renameNamed f), p.program.map (Instruction.rename f)⟩

namespace Scenario

theorem spawn_rename (spec : EntitySpec) (id : EntityId) (w : World) :
    spawn spec (f id) (w.rename f) =
      Prod.map (World.rename f) (EntityRef.rename f) (spawn spec id w) := by
  unfold spawn
  cases spec.kind with
  | item =>
      dsimp only
      rw [World.spawnItem_rename]
      cases spec.alive with
      | true => rfl
      | false => exact congrArg (·, _) (World.kill_rename f _ id)
  | player | living | other =>
      dsimp only
      rw [World.spawn_rename]
      cases spec.alive with
      | true => rfl
      | false => exact congrArg (·, _) (World.kill_rename f _ id)

variable {f} {ids ids' : Nat → EntityId}

theorem spawnAll_rename (specs : List EntitySpec) (w : World) (named : List (String × EntityRef))
    (agree : ∀ place < named.length + specs.length, f (ids place) = ids' place) :
    spawnAll ids' (w.rename f) (named.map (renameNamed f)) specs =
      (spawnAll ids w named specs).map
        (Prod.map (World.rename f) (List.map (renameNamed f))) := by
  induction specs generalizing w named with
  | nil => rfl
  | cons spec rest ih =>
      have here : f (ids named.length) = ids' named.length :=
        agree _ (by simp only [List.length_cons]; omega)
      simp only [spawnAll, lookup_renameNamed, Option.isSome_map, List.length_map, ← here,
        spawn_rename]
      split
      · rfl
      · have named_append (ref : EntityRef) : named.map (renameNamed f) ++
            [(spec.name, ref.rename f)] = (named ++ [(spec.name, ref)]).map (renameNamed f) := by
          simp only [List.map_append, List.map_cons, List.map_nil, Prod.map_apply, id]
        simp only [Prod.map_fst, Prod.map_snd, named_append]
        apply ih
        intro place before
        apply agree
        simp only [List.length_append, List.length_cons, List.length_nil] at before ⊢
        omega

theorem resolveStep_rename (named : List (String × EntityRef)) (index : Nat) (step : ScenarioStep)
    (bare : ∀ iota, step = .push iota → iota.ids = []) :
    resolveStep (named.map (renameNamed f)) index step =
      (resolveStep named index step).map (Instruction.rename f) := by
  cases step with
  | push iota =>
      have kept : iota.rename f = iota := Iota.rename_bare (bare iota rfl)
      simp only [resolveStep, Except.map, Instruction.rename, kept]
  | entity name =>
      simp only [resolveStep, lookup_renameNamed]
      cases named.lookup name <;> rfl
  | op name =>
      simp only [resolveStep]
      cases StockOperator.resolve name <;> rfl

theorem resolveFrom_rename (named : List (String × EntityRef)) (index : Nat)
    (steps : List ScenarioStep) (bare : ∀ iota, .push iota ∈ steps → iota.ids = []) :
    resolveFrom (named.map (renameNamed f)) index steps =
      (resolveFrom named index steps).map (List.map (Instruction.rename f)) := by
  induction steps generalizing index with
  | nil => rfl
  | cons step rest ih =>
      have first := resolveStep_rename (f := f) named index step fun iota h =>
        bare iota (h ▸ List.mem_cons_self)
      have others := ih (index + 1) fun iota member => bare iota (List.mem_cons_of_mem _ member)
      simp only [resolveFrom, first, others]
      cases resolveStep named index step with
      | error fault => rfl
      | ok instruction => cases resolveFrom named (index + 1) rest <;> rfl

/-- With renamed identities, the scenario is prepared with renamed ones. -/
theorem prepare_rename (s : Scenario) (limits : Limits)
    (agree : ∀ place < s.entities.length, f (ids place) = ids' place)
    (bare : ∀ iota, .push iota ∈ s.program → iota.ids = []) :
    s.prepare ids' limits = (s.prepare ids limits).map (Prepared.rename f) := by
  have spawned : spawnAll ids' (s.emptyWorld limits) [] s.entities = _ :=
    spawnAll_rename s.entities (s.emptyWorld limits) [] (by simpa using agree)
  unfold prepare
  rw [spawned]
  rcases spawnAll ids (s.emptyWorld limits) [] s.entities with fault | ⟨world, named⟩
  · rfl
  · simp only [Except.map, Prod.map_apply, resolveFrom_rename named 0 s.program bare]
    cases resolveFrom named 0 s.program <;> rfl

end Scenario

namespace Prepared

variable {f}

theorem insertByName_rename (entry : String × EntityRef) (named : List (String × EntityRef)) :
    insertByName (renameNamed f entry) (named.map (renameNamed f)) =
      (insertByName entry named).map (renameNamed f) := by
  induction named with
  | nil => rfl
  | cons first rest ih =>
      simp only [List.map_cons, insertByName, ih, Prod.map_fst, id]
      split <;> rfl

theorem byName_rename (p : Prepared) :
    (p.rename f).byName = p.byName.map (renameNamed f) := by
  change (p.named.map (renameNamed f)).foldr insertByName [] = _
  unfold byName
  induction p.named with
  | nil => rfl
  | cons entry rest ih => simp only [List.map_cons, List.foldr_cons, ih, insertByName_rename]

theorem summarize_rename (p : Prepared) (w : World) :
    (p.rename f).summarize (w.rename f) = p.summarize w := by
  have found (id : EntityId) : (w.rename f).roster.find? (f id) = _ := w.roster.find?_rename f id
  have alive (id : EntityId) : (w.rename f).isAlive (f id) = w.isAlive id := by
    unfold World.isAlive
    rw [found]
    cases w.roster.find? id <;> rfl
  have item (id : EntityId) : (w.rename f).entityItem? (f id) = w.entityItem? id := by
    unfold World.entityItem?
    rw [found]
    cases w.roster.find? id <;> rfl
  unfold summarize
  rw [byName_rename, List.map_map]
  simp only [Function.comp_def, Prod.map_fst, Prod.map_snd, EntityRef.rename, alive, item, id]
  rfl

theorem run_rename (p : Prepared) (limits : Limits) :
    (p.rename f).run limits = (p.run limits).rename f := by
  have cast : (CastingState.new limits []).castBatch
      ((p.rename f).program.map (Instruction.map StockOperator.toOperator)) (p.rename f).world =
        Prod.map (CastingState.rename f) (Prod.map (World.rename f) (renameResult f))
          ((CastingState.new limits []).castBatch
            (p.program.map (Instruction.map StockOperator.toOperator)) p.world) :=
    CastingState.castBatch_rename (f := f) (.new limits []) p.program p.world
  unfold run
  dsimp only
  rw [cast]
  rcases (CastingState.new limits []).castBatch
    (p.program.map (Instruction.map StockOperator.toOperator)) p.world with
    ⟨after, world, failure | report⟩
  · simp only [Prod.map_apply, renameResult, summarize_rename, Outcome.rename]
  · simp only [Prod.map_apply, renameResult, summarize_rename, Outcome.rename]

end Prepared

end

/-- Two choices of distinct identities are a renaming of each other. -/
theorem exists_renaming {count : Nat} {ids ids' : Nat → EntityId}
    (distinct : Set.InjOn ids (Set.Iio count)) (distinct' : Set.InjOn ids' (Set.Iio count)) :
    ∃ f : EntityId ↪ EntityId, ∀ place < count, f (ids place) = ids' place := by
  obtain ⟨permutation, extends_⟩ := Equiv.Perm.exists_extending_pair
    (fun place : Fin count => ids place) (fun place : Fin count => ids' place)
    (fun a b same => Fin.ext (distinct a.isLt b.isLt same))
    (fun a b same => Fin.ext (distinct' a.isLt b.isLt same))
  exact ⟨permutation.toEmbedding, fun place before => extends_ ⟨place, before⟩⟩

/-- Outcomes do not depend on identities. A cast of renamed values in a renamed world is the renamed
cast; and two choices of distinct identities for the entities of a scenario whose program holds no
references are told apart, in the prepared scenario and in what comes of it, by a renaming alone. -/
theorem outcomes_do_not_depend_on_identities :
    (∀ (f : EntityId ↪ EntityId) (s : CastingState) (steps : List (Instruction StockOperator))
        (w : World),
      (s.rename f).castBatch (StockOperator.program (steps.map (Instruction.rename f)))
          (w.rename f) =
        Prod.map (CastingState.rename f) (Prod.map (World.rename f) (renameResult f))
          (s.castBatch (StockOperator.program steps) w)) ∧
    ∀ (s : Scenario) (building running : Limits) (ids ids' : Nat → EntityId),
      Set.InjOn ids (Set.Iio s.entities.length) → Set.InjOn ids' (Set.Iio s.entities.length) →
      (∀ iota, .push iota ∈ s.program → iota.ids = []) →
      ∃ f : EntityId ↪ EntityId, (∀ place < s.entities.length, f (ids place) = ids' place) ∧
        s.prepare ids' building = (s.prepare ids building).map (Prepared.rename f) ∧
        ∀ prepared, s.prepare ids building = .ok prepared →
          (prepared.rename f).run running = (prepared.run running).rename f := by
  refine ⟨fun f s steps w => s.castBatch_rename steps w, ?_⟩
  intro s building running ids ids' distinct distinct' bare
  obtain ⟨f, agree⟩ := exists_renaming distinct distinct'
  exact ⟨f, agree, s.prepare_rename building agree bare, fun p _ => p.run_rename running⟩

namespace Scenario

/-- A caster with an empty battery, some dust to charge it with, and a sheep. -/
def pasture : Scenario where
  caster := { CasterSpec.plain with
    media := 200000
    mainHand := some ((ItemStack.new .battery 1).withMaxMedia 15000) }
  media := []
  entities := [⟨"Dust", .item, .zero, some (.new .amethystDust 2), true⟩,
    ⟨"Sheep", .living, ⟨3, 4, 0⟩, none, true⟩]
  program := [.push (.list [.null]), .entity "Sheep", .op "append", .entity "Dust", .op "recharge"]

end Scenario

/-- The battery is charged and the sheep is on the stack, in a list, whatever they are called. -/
theorem pasture_is_renamed :
    ∃ (f : EntityId ↪ EntityId) (prepared : Prepared),
      Set.InjOn EntityId.ofNat (Set.Iio Scenario.pasture.entities.length) ∧
      Set.InjOn (EntityId.ofNat <| 7 - ·) (Set.Iio Scenario.pasture.entities.length) ∧
      (∀ iota, .push iota ∈ Scenario.pasture.program → iota.ids = []) ∧
      f (.ofNat 0) = .ofNat 7 ∧ f (.ofNat 1) = .ofNat 6 ∧
      Scenario.pasture.prepare EntityId.ofNat .standard = .ok prepared ∧
      Scenario.pasture.prepare (EntityId.ofNat <| 7 - ·) .standard = .ok (prepared.rename f) ∧
      (prepared.rename f).run .standard = (prepared.run .standard).rename f ∧
      (prepared.run .standard).isCast = true := by
  have distinct : ∀ a < 2, ∀ b < 2, EntityId.ofNat a = EntityId.ofNat b → a = b := by decide
  have distinct' : ∀ a < 2, ∀ b < 2, EntityId.ofNat (7 - a) = EntityId.ofNat (7 - b) → a = b := by
    decide
  have first : Set.InjOn EntityId.ofNat (Set.Iio Scenario.pasture.entities.length) :=
    fun a ha b hb => distinct a ha b hb
  have other : Set.InjOn (EntityId.ofNat <| 7 - ·) (Set.Iio Scenario.pasture.entities.length) :=
    fun a ha b hb => distinct' a ha b hb
  have bare : ∀ iota, .push iota ∈ Scenario.pasture.program → iota.ids = [] := by
    intro iota pushed
    simp only [Scenario.pasture, List.mem_cons, ScenarioStep.push.injEq, reduceCtorEq,
      List.not_mem_nil, or_false] at pushed
    subst pushed
    rfl
  have accepted : ((Scenario.pasture.prepare EntityId.ofNat .standard).map
      fun prepared => (prepared.run .standard).isCast).toOption = some true := by
    decide +kernel
  rcases prepares : Scenario.pasture.prepare EntityId.ofNat .standard with fault | prepared
  · rw [prepares] at accepted
    cases accepted
  · rw [prepares] at accepted
    obtain ⟨f, agree, renamed, runs⟩ := outcomes_do_not_depend_on_identities.2 Scenario.pasture
      .standard .standard EntityId.ofNat (EntityId.ofNat <| 7 - ·) first other bare
    rw [prepares] at renamed
    exact ⟨f, prepared, first, other, bare, agree 0 (by decide), agree 1 (by decide), rfl, renamed,
      runs prepared prepares, Option.some.inj accepted⟩

end Spellcasting

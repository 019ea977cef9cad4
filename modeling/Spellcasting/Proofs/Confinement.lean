import Spellcasting.Proofs.Commits
import Spellcasting.Proofs.StockPrograms

/-! # Casts are confined

A stock cast changes only what its evaluation was allowed to choose. Targets are checked through the
reference at hand, in the world before the cast; they are written later through the identity alone,
after other spells. `Confined` relates the world before to every world on the way, and each commit
keeps it because what was checked before bounds what is written now.
-/

namespace Spellcasting

namespace World

/-- Worlds that start without entities and are changed by hand. -/
inductive Built : World → Prop where
  | alone {w} : w.roster = .empty → Built w
  | spawn {w} (id kind name position) : Built w → Built (w.spawn id kind name position).1
  | spawnItem {w} (id name position stack) : Built w → Built (w.spawnItem id name position stack).1
  | despawn {w} (id) : Built w → Built (w.despawn id)
  | kill {w} (id) : Built w → Built (w.kill id)
  | move {w} (id position) : Built w → Built (w.move id position)
  | hold {w} (hand stack) : Built w → Built (w.hold hand stack)

/-- Whatever carries a stack is of the kind for it. -/
def OnlyItemsCarry (w : World) : Prop :=
  ∀ id e stack, w.roster.find? id = some e → e.item = some stack → e.ref.kind = .item

theorem OnlyItemsCarry.edit {w v : World} {id : EntityId} {change : Roster.Edit}
    (h : w.OnlyItemsCarry) (edited : v.roster = w.roster.edit id change)
    (same : ∀ item, change.item item = item) : v.OnlyItemsCarry := by
  intro other e stack found carried
  rw [edited, Roster.find?_edit] at found
  split at found
  · obtain ⟨before, known, rfl⟩ := Option.map_eq_some_iff.mp found
    exact h other before stack known ((same before.item).symm.trans carried)
  · exact h other e stack found carried

theorem Built.onlyItemsCarry {w : World} (built : w.Built) : w.OnlyItemsCarry := by
  induction built with
  | alone empty =>
      intro id e stack found
      rw [empty] at found
      cases found
  | spawn id kind name position _ ih =>
      intro other e stack found carried
      simp only [World.spawn, Roster.find?_insert] at found
      split at found
      · cases found
        cases carried
      · exact ih other e stack found carried
  | spawnItem id name position stack _ ih =>
      intro other e held found carried
      simp only [World.spawnItem, Roster.find?_insert] at found
      split at found
      · cases found
        rfl
      · exact ih other e held found carried
  | despawn id _ ih =>
      intro other e stack found carried
      simp only [World.despawn, Roster.find?_erase] at found
      split at found
      · cases found
      · exact ih other e stack found carried
  | kill id _ ih => exact ih.edit rfl fun _ => rfl
  | move id position _ ih => exact ih.edit rfl fun _ => rfl
  | hold hand stack _ ih =>
      intro id e carried found
      rw [roster_hold] at found
      exact ih id e carried found

end World

/-- How a cast may change an entity: one that was alive, of the kind for items and in range, with
media to give, has no more items and no more media than before, and lives exactly if it has items
left. -/
structure EntityState.Drained (w : World) (before now : EntityState) : Prop where
  alive : before.alive = true
  kind : before.ref.kind = .item
  inRange : CastingEnv.entityInRange w before.ref = true
  ref : now.ref = before.ref
  position : now.position = before.position
  stack : ∃ stack rest, before.item = some stack ∧ w.registry.isMediaItem stack = true ∧
    now.item = some rest ∧ stack.Spent rest ∧ now.alive = !rest.isEmpty

/-- How a cast may change a held stack: it may charge a rechargeable holder up to its capacity, or
turn one glass bottle into a full battery. -/
inductive ItemStack.Worked (r : MediaRegistry) : ItemStack → ItemStack → Prop where
  | untouched (stack) : Worked r stack stack
  | charged {stack holder media} : r.findHolder stack = some holder → holder.canRecharge = true →
      stack.media < media → media ≤ holder.maxMedia → Worked r stack { stack with media }
  | bottled {stack media} : stack.is .glassBottle = true → stack.count = 1 → 0 < media →
      Worked r stack (CraftBattery.battery media)

namespace World

/-- What a cast may make of a world, the reserve of the caster apart. -/
structure Confined (w now : World) : Prop where
  casterPosition : now.casterPosition = w.casterPosition
  ambitRadius : now.ambitRadius = w.ambitRadius
  castingHand : now.castingHand = w.castingHand
  registry : now.registry = w.registry
  hands : ∀ hand, (w.held hand).Worked w.registry (now.held hand)
  absent : ∀ id, w.roster.find? id = none → now.roster.find? id = none
  entities : ∀ id before, w.roster.find? id = some before →
    ∃ e, now.roster.find? id = some e ∧ (e = before ∨ before.Drained w e)

theorem Confined.reserve (w : World) (casterMedia : Media) :
    w.Confined { w with casterMedia } :=
  ⟨rfl, rfl, rfl, rfl, fun hand => by cases hand <;> exact .untouched _, fun _ unknown => unknown,
    fun _ before found => ⟨before, found, .inl rfl⟩⟩

end World

theorem Targeted.carries {w : World} {args : List Iota} {ref : EntityRef} {state : EntityState}
    (checked : Targeted w args ref state) :
    state.alive = true ∧
      ∃ stack, state.item = some stack ∧ w.registry.isMediaItem stack = true := by
  have near := checked.inRange
  simp only [CastingEnv.entityInRange, checked.known, Bool.and_eq_true] at near
  refine ⟨near.1, ?_⟩
  have media := checked.media
  cases carried : state.item with
  | none =>
      rw [carried] at media
      cases media
  | some stack =>
      rw [carried] at media
      exact ⟨stack, rfl, media⟩

/-- Draining a checked target is allowed, also where spells before have drained it already. -/
theorem Targeted.drained {w : World} {args : List Iota} {ref : EntityRef} {state e : EntityState}
    {source rest : ItemStack} (checked : Targeted w args ref state) (items : w.OnlyItemsCarry)
    (change : e = state ∨ state.Drained w e) (living : e.alive = true)
    (item : e.item = some source) (spent : source.Spent rest) :
    state.Drained w ((Roster.Edit.leaving rest).apply e) := by
  obtain ⟨alive, first, carried, media⟩ := checked.carries
  have who : state.ref.id = ref.id := Roster.id_of_find? checked.known
  obtain ⟨ref', position', before'⟩ : e.ref = state.ref ∧ e.position = state.position ∧
      first.Spent source := by
    rcases change with rfl | drained
    · rw [carried] at item
      cases item
      exact ⟨rfl, rfl, .refl _⟩
    · obtain ⟨stack, left, had, -, has, less, -⟩ := drained.stack
      rw [carried] at had
      rw [item] at has
      cases had
      cases has
      exact ⟨drained.ref, drained.position, less⟩
  have near := checked.inRange
  unfold CastingEnv.entityInRange at near
  refine ⟨alive, items ref.id state first checked.known carried, ?_, ref', position', first, rest,
    carried, media, rfl, before'.trans spent, ?_⟩
  · unfold CastingEnv.entityInRange
    rwa [who]
  · simp only [Roster.Edit.apply, Roster.Edit.leaving, living, Bool.true_and]

theorem World.Confined.exchange {w now : World} {args : List Iota} {ref : EntityRef}
    {state : EntityState} {hand : Hand} {stack source rest : ItemStack} (h : w.Confined now)
    (items : w.OnlyItemsCarry) (checked : Targeted w args ref state)
    (slot : now.entitySlot? ref.id = some source) (spent : source.Spent rest)
    (worked : (w.held hand).Worked w.registry stack) :
    w.Confined (now.exchange hand stack ref.id rest) := by
  refine ⟨?_, ?_, ?_, ?_, fun other => ?_, fun id unknown => ?_, fun id before known => ?_⟩
  · rw [World.casterPosition_exchange, h.casterPosition]
  · rw [World.ambitRadius_exchange, h.ambitRadius]
  · rw [World.castingHand_exchange, h.castingHand]
  · rw [World.registry_exchange, h.registry]
  · rw [World.held_exchange]
    split
    · next same => exact same ▸ worked
    · exact h.hands other
  · rw [World.find?_exchange, h.absent id unknown]
    split <;> rfl
  · obtain ⟨e, found, change⟩ := h.entities id before known
    rw [World.find?_exchange, found]
    split
    · next target =>
        subst target
        obtain rfl : state = before := Option.some.inj (checked.known.symm.trans known)
        obtain ⟨_, foundAgain, living, item⟩ := World.entitySlot?_eq_some.mp slot
        obtain rfl := Option.some.inj (found.symm.trans foundAgain)
        exact ⟨_, rfl, .inr (checked.drained items change living item spent)⟩
    · exact ⟨e, rfl, change⟩

namespace ItemStack

variable {r : MediaRegistry} {stack now : ItemStack}

theorem Worked.of_media {holder : MediaHolder} {media : Media}
    (captured : Recharge.rechargeable? r stack = some holder)
    (more : stack.media.toNat ≤ media.toNat)
    (within : media = stack.media ∨ media.toNat ≤ holder.maxMedia.toNat) :
    stack.Worked r { stack with media } := by
  obtain ⟨known, recharges⟩ := Option.filter_eq_some_iff.mp captured
  by_cases same : media = stack.media
  · rw [same]
    exact .untouched stack
  · have differ : media.toNat ≠ stack.media.toNat := fun h => same (UInt64.toNat_inj.mp h)
    refine .charged known recharges (UInt64.lt_iff_toNat_lt.mpr (by omega)) ?_
    exact UInt64.le_iff_toNat_le.mpr (within.resolve_left same)

theorem maxMedia_of_media {first holder : MediaHolder} {media : Media}
    (known : r.findHolder stack = some first)
    (found : r.findHolder { stack with media } = some holder) :
    holder.maxMedia = first.maxMedia := by
  obtain ⟨-, capability, whole⟩ := MediaRegistry.findHolder_eq_some.mp found
  obtain ⟨-, capability', whole'⟩ := MediaRegistry.findHolder_eq_some.mp known
  have kinds := Option.some.inj (capability.symm.trans capability')
  simp only [MediaHolder.maxMedia, MediaHolder.media, whole, whole', kinds]
  cases first.capability with
  | dust => rfl
  | battery => rfl

theorem Worked.insert {first holder : MediaHolder} (h : stack.Worked r now)
    (same : now.item = stack.item) (captured : Recharge.rechargeable? r stack = some first)
    (found : r.findHolder now = some holder) (amount : MediaAmount) :
    stack.Worked r (holder.insert amount false).2.stack := by
  obtain ⟨known, -⟩ := Option.filter_eq_some_iff.mp captured
  obtain ⟨filled, -, room⟩ := MediaHolder.insert_eq holder amount
  have sum := MediaHolder.toNat_media_insert holder amount
  obtain ⟨-, -, whole⟩ := MediaRegistry.findHolder_eq_some.mp found
  rw [filled, whole]
  rw [whole] at room sum
  -- Either way the hand holds what it held, apart from the media on it.
  cases h with
  | untouched =>
      obtain rfl := Option.some.inj (known.symm.trans found)
      refine .of_media captured (by omega) ?_
      by_cases nothing : (first.insert amount false).1 = 0
      · exact .inl (by rw [nothing, UInt64.add_zero])
      · have more : (first.insert amount false).1.toNat ≠ 0 :=
          fun zero => nothing (UInt64.toNat_inj.mp zero)
        exact .inr (by omega)
  | @charged before media knownBefore _ more within =>
      obtain rfl := Option.some.inj (known.symm.trans knownBefore)
      have more := UInt64.lt_iff_toNat_lt.mp more
      have within := UInt64.le_iff_toNat_le.mp within
      rw [maxMedia_of_media known found] at room
      simp only at room sum ⊢
      exact .of_media captured (by omega) (.inr (by omega))
  | bottled bottle =>
      simp only [is, Bool.and_eq_true, decide_eq_true_eq] at bottle
      have clash : ItemId.battery = ItemId.glassBottle := same.trans bottle.2
      exact absurd clash (by decide)

theorem Worked.bottle (h : stack.Worked r now) (bottle : now.is .glassBottle = true)
    (single : now.count = 1) : stack.is .glassBottle = true ∧ stack.count = 1 := by
  cases h with
  | untouched => exact ⟨bottle, single⟩
  | charged => exact ⟨bottle, single⟩
  | bottled => cases bottle

end ItemStack

/-- Each spell of a cast stays within what the cast may change, whatever the spells before it have
done. -/
theorem World.Confined.commit {w now : World} {args : List Iota} {spell : Spell World}
    (h : w.Confined now) (items : w.OnlyItemsCarry) (captured : spell.CapturedIn w args) :
    w.Confined (spell.commit now) ∧ (spell.commit now).casterMedia = now.casterMedia := by
  cases captured with
  | @recharge spell spray evaluated =>
      obtain ⟨ref, state, first, checked, target, -, -, item, captured, -⟩ :=
        Recharge.evaluate_some evaluated
      change w.Confined (Recharge.commit spell now) ∧ (Recharge.commit spell now).casterMedia = _
      rcases spell.commit_cases now with idle | ⟨source, holder, slot, same, found⟩
      · rw [idle]
        exact ⟨h, rfl⟩
      · rw [Recharge.commit_eq slot same found]
        rw [target] at slot ⊢
        refine ⟨h.exchange items checked slot (MediaRegistry.extract_spent ..) ?_,
          World.casterMedia_exchange ..⟩
        rw [h.registry] at found
        exact (h.hands spell.hand).insert (same.trans item) captured found _
  | @craftBattery spell spray evaluated =>
      obtain ⟨ref, state, checked, target, -⟩ := CraftBattery.evaluate_some evaluated
      change w.Confined (CraftBattery.commit spell now) ∧
        (CraftBattery.commit spell now).casterMedia = _
      rcases spell.commit_cases now with idle | ⟨source, bottle, single, slot⟩
      · rw [idle]
        exact ⟨h, rfl⟩
      · rw [CraftBattery.commit_eq bottle single slot]
        rw [target] at slot ⊢
        refine ⟨h.exchange items checked slot (CraftBattery.drain_spent ..) ?_,
          World.casterMedia_exchange ..⟩
        obtain ⟨bottle, single⟩ := (h.hands spell.hand).bottle bottle single
        split
        · next drawn => exact .bottled bottle single drawn
        · exact h.hands spell.hand

theorem World.Confined.commitAll {w : World} {spells : List (Spell World)}
    (items : w.OnlyItemsCarry) (captured : ∀ spell ∈ spells, ∃ args, spell.CapturedIn w args)
    {now : World} (h : w.Confined now) :
    w.Confined (spells.foldl (fun w spell => spell.commit w) now) ∧
      (spells.foldl (fun w spell => spell.commit w) now).casterMedia = now.casterMedia := by
  refine List.foldlRecOn
    (motive := fun next : World => w.Confined next ∧ next.casterMedia = now.casterMedia)
    spells _ ⟨h, rfl⟩ ?_
  intro next ⟨confined, reserve⟩ spell asked
  obtain ⟨args, answered⟩ := captured spell asked
  obtain ⟨last, same⟩ := confined.commit items answered
  exact ⟨last, same.trans reserve⟩

/-- An accepted cast of stock operators, whatever references its program makes up, drains only
living stacks in range, works only on the hands, and takes from the caster exactly what it reports.
-/
theorem casts_are_confined {w : World} (built : w.Built) (s after : CastingState)
    (steps : List (Instruction StockOperator)) (w' : World) (report : CastReport)
    (accepted : s.castBatch (StockOperator.program steps) w = (after, w', .ok report)) :
    w.Confined w' ∧ w'.casterMedia.toNat + report.mediaDrawn.toNat = w.casterMedia.toNat := by
  obtain ⟨effects, paid, accepts⟩ := CastingState.castBatch_ok accepted
  obtain ⟨enough, rfl⟩ := CastingState.pay_ok accepts.payment
  obtain ⟨confined, reserve⟩ := (World.Confined.reserve w _).commitAll built.onlyItemsCarry
    accepts.run.captured
  rw [← accepts.committed] at confined reserve
  refine ⟨confined, ?_⟩
  have least := UInt64.le_iff_toNat_le.mp enough
  rw [reserve, UInt64.toNat_sub_of_le _ _ enough]
  omega

/-- Both spells in one cast: only the two stacks on the ground, the hands and the price change. -/
theorem workbench_cast_is_confined :
    World.workbench.Built ∧ ∃ after w' report,
      (CastingState.new .standard []).castBatch (StockOperator.program World.workbenchSteps)
        World.workbench = (after, w', .ok report) ∧
      World.workbench.Confined w' ∧
      w'.casterMedia.toNat + report.mediaDrawn.toNat = World.workbench.casterMedia.toNat := by
  have built : World.workbench.Built :=
    .spawn _ _ _ _ (.spawnItem _ _ _ _ (.spawnItem _ _ _ _ (.hold _ _ (.hold _ _ (.alone rfl)))))
  have paid : ((CastingState.new .standard []).castBatch
      (StockOperator.program World.workbenchSteps) World.workbench).2.2.isOk = true := by
    decide +kernel
  refine ⟨built, ?_⟩
  rcases cast : (CastingState.new .standard []).castBatch
    (StockOperator.program World.workbenchSteps) World.workbench with ⟨after, w', failure | report⟩
  · rw [cast] at paid
    cases paid
  · exact ⟨after, w', report, rfl, casts_are_confined built _ _ _ _ _ cast⟩

end Spellcasting

import Spellcasting.Proofs.Transfers

/-! # Commits in a world that has moved on

Between its evaluation and its commit a spell may find anything changed: the target gone, dead or
restocked, the hand empty or holding something else. A commit that is still in time does all of its
work, counted exactly in natural numbers; any other leaves the world alone, but for the life of an
entity that carries nothing.
-/

namespace Spellcasting

/-- There is an entity of the given identity, it lives, and it carries the given stack. -/
def World.LivesWith (w : World) (id : EntityId) (stack : ItemStack) : Prop :=
  ∃ e, w.roster.find? id = some e ∧ e.alive = true ∧ e.item = some stack

theorem World.LivesWith.slot {w : World} {id : EntityId} {stack : ItemStack}
    (lives : w.LivesWith id stack) : w.entitySlot? id = some stack :=
  entitySlot?_eq_some.mpr lives

namespace Recharge

/-- A recharge that can still be done: the target lives and carries a stack, and the hand holds
some of the item for which the recharge was answered. -/
structure InTime (spell : Recharge) (w : World) (source : ItemStack) : Prop where
  carried : w.LivesWith spell.target source
  present : (w.held spell.hand).isEmpty = false
  same : (w.held spell.hand).item = spell.holderItem

/-- How a recharge takes one world to another: an amount goes from the stack of the target, which
dies if nothing is left of it, into the holder in the hand. -/
structure Transfers (spell : Recharge) (w w' : World) (source : ItemStack) (holder : MediaHolder)
    (amount : Nat) (rest : ItemStack) : Prop where
  selected : w.registry.findHolder (w.held spell.hand) = some holder
  lesser : amount = min (holder.maxMedia.toNat - (w.held spell.hand).media.toNat)
    (w.registry.withdrawable source).toNat
  filled : w'.held spell.hand = { w.held spell.hand with media := (w'.held spell.hand).media }
  level : (w'.held spell.hand).media.toNat = (w.held spell.hand).media.toNat + amount
  leaves : w.registry.Leaves source amount rest
  carried : w'.entityItem? spell.target = some rest
  life : w'.isAlive spell.target = !rest.isEmpty
  frame : w' = w.exchange spell.hand (w'.held spell.hand) spell.target rest

/-- The words that a recharge reckons in are wide enough: what is drawn from a stack is put in
whole, neither sum nor difference wraps, and the items used up are not too many to be counted. -/
structure StaysInWords (r : MediaRegistry) (source : ItemStack) (holder : MediaHolder)
    (drawn : Media) : Prop where
  accepted : (holder.insert (.units drawn) false).1 = drawn
  sum : holder.stack.media.toNat + drawn.toNat < UInt64.size
  difference : ∀ capacity rechargeable,
    r.capability? source.item = some (.battery capacity rechargeable) →
    drawn.toNat ≤ source.media.toNat
  items : ∀ perItem, r.capability? source.item = some (.dust perItem) →
    Media.portions drawn perItem ≤ source.count.toNat ∧
      Media.portions drawn perItem < UInt32.size

theorem holderItem_of_evaluate {ω : Type} [CastingEnv ω] {earlier : ω} {args : List Iota}
    {spell : Recharge} {spray : Spray}
    (answered : evaluate args earlier = .ok (some (spell, spray))) :
    ∃ usual, (CastingEnv.registry earlier).capability? spell.holderItem =
      some (.battery usual true) := by
  obtain ⟨-, -, holder, -, -, -, -, item, captured, -⟩ := evaluate_some answered
  obtain ⟨found, recharges⟩ := Option.filter_eq_some_iff.mp captured
  obtain ⟨-, known, -⟩ := MediaRegistry.findHolder_eq_some.mp found
  rw [← item] at known
  cases kind : holder.capability with
  | dust perItem => simp [MediaHolder.canRecharge, kind] at recharges
  | battery usual rechargeable =>
      simp only [MediaHolder.canRecharge, kind] at recharges
      exact ⟨usual, by rw [known, kind, recharges]⟩

variable {spell : Recharge} {w : World} {source : ItemStack} {holder : MediaHolder}

theorem Transfers.of_inTime (fits : w.Fits) (inTime : spell.InTime w source)
    (selected : w.registry.findHolder (w.held spell.hand) = some holder)
    (recharges : holder.canRecharge = true) :
    ∃ rest, spell.Transfers w (spell.commit w) source holder
      (moved w.registry source holder).toNat rest := by
  obtain ⟨carried, -, same⟩ := inTime
  have slot := carried.slot
  obtain ⟨-, -, stack⟩ := MediaRegistry.findHolder_eq_some.mp selected
  have free := MediaHolder.toNat_freeCapacity recharges
  have whole := toNat_media_moved w.registry source holder
  have leaves := MediaRegistry.extract_leaves (fits.slot slot) (.units holder.freeCapacity)
  rw [w.registry.extract_fst] at leaves
  rw [stack] at free whole
  -- the holder has room for all that is drawn, so what leaves the target is what arrives
  refine ⟨(w.registry.extract source (.units holder.freeCapacity) false).2, ?_⟩
  rw [commit_eq_moved slot same selected]
  refine ⟨selected, ?_, ?_, ?_, leaves, ?_, ?_, ?_⟩
  · rw [toNat_moved, free]
  · rw [World.held_exchange, if_pos rfl]
  · rw [World.held_exchange, if_pos rfl, toNat_moved]
    exact whole
  · exact World.entityItem?_exchange w _ _ _ slot
  · exact World.isAlive_exchange _ _ _ slot
  · rw [World.held_exchange, if_pos rfl]

theorem StaysInWords.of_fits {r : MediaRegistry} (fits : r.Fits source) :
    StaysInWords r source holder (r.extract source (.units holder.freeCapacity) false).1 := by
  have leaves := MediaRegistry.extract_leaves fits (.units holder.freeCapacity)
  rw [r.extract_fst] at leaves ⊢
  change r.Leaves source (moved r source holder).toNat _ at leaves
  change StaysInWords r source holder (moved r source holder)
  refine ⟨?_, ?_, fun capacity rechargeable battery => ?_, fun perItem dust => ?_⟩
  · rw [MediaHolder.insert_units (moved_le r source holder)]
  · rw [← MediaHolder.toNat_media_add (moved_le r source holder)]
    exact UInt64.toNat_lt_size _
  · obtain ⟨-, lost⟩ := leaves.battery capacity rechargeable battery
    omega
  · obtain ⟨-, lost⟩ := leaves.dust perItem dust
    have bound := source.count.toNat_lt_size
    change _ + Media.portions (moved r source holder) perItem = _ at lost
    omega

end Recharge

/-- A recharge moves the lesser of what its hand has room for and what its target can give, however
the world has changed since it was answered, as long as the target lives with a stack and the hand
holds the same item: a battery gives up just that much media and dust as many items as cover it. In
any other world it does nothing at all. -/
theorem stale_recharges_transfer_exactly {ω : Type} [CastingEnv ω] {earlier : ω}
    {args : List Iota} {spell : Recharge} {spray : Spray}
    (answered : Recharge.evaluate args earlier = .ok (some (spell, spray))) {w : World}
    (registry : w.registry = CastingEnv.registry earlier) (fits : w.Fits) :
    (∀ source, spell.InTime w source → ∃ holder amount rest,
      holder.canRecharge = true ∧
      spell.Transfers w (spell.commit w) source holder amount rest ∧
      let drawn := (w.registry.extract source (.units holder.freeCapacity) false).1
      drawn.toNat = amount ∧ Recharge.StaysInWords w.registry source holder drawn) ∧
    ((∀ source, ¬ spell.InTime w source) → spell.commit w = w) := by
  obtain ⟨usual, known⟩ := Recharge.holderItem_of_evaluate answered
  rw [← registry] at known
  refine ⟨fun source inTime => ?_, fun late => ?_⟩
  · let holder : MediaHolder := ⟨w.held spell.hand, .battery usual true⟩
    have selected : w.registry.findHolder (w.held spell.hand) = some holder :=
      MediaRegistry.findHolder_eq_some.mpr ⟨inTime.present, inTime.same ▸ known, rfl⟩
    obtain ⟨rest, transfers⟩ := Recharge.Transfers.of_inTime fits inTime selected rfl
    refine ⟨holder, _, rest, rfl, transfers, ?_, .of_fits (fits.slot inTime.carried.slot)⟩
    rw [w.registry.extract_fst]
    rfl
  · rcases spell.commit_cases w with idle | ⟨source, holder, slot, same, found⟩
    · exact idle
    · obtain ⟨present, -, -⟩ := MediaRegistry.findHolder_eq_some.mp found
      exact absurd ⟨World.entitySlot?_eq_some.mp slot, present, same⟩ (late source)

/-- The workbench when its dust has become more and its battery is no longer empty. -/
def World.restocked : World :=
  let battery := ((ItemStack.new .battery 1).withMaxMedia 15000).withMedia 4000
  ((workbench.hold .off battery).spawnItem (.ofNat 1) "Dust" .zero (.new .amethystDust 5)).1

/-- A recharge answered at the workbench fills what is left of the battery from two of the new
pinches of dust, and does nothing once the battery has been swapped for a bottle. -/
theorem restocked_dust_fills_the_battery :
    let spell : Recharge := ⟨.ofNat 1, .off, .battery⟩
    let swapped := World.workbench.hold .off (.new .glassBottle 1)
    (∃ spray, Recharge.evaluate [.entity ⟨.ofNat 1, .item, "Dust"⟩] World.workbench =
      .ok (some (spell, spray))) ∧
    World.restocked.registry = World.workbench.registry ∧ World.restocked.Fits ∧
    spell.InTime World.restocked (.new .amethystDust 5) ∧
    (∃ holder rest, spell.Transfers World.restocked (spell.commit World.restocked)
      (.new .amethystDust 5) holder 11000 rest ∧ rest.count = 3) ∧
    spell.commit swapped = swapped := by
  intro spell swapped
  have answered : ∃ spray,
      Recharge.evaluate [.entity ⟨.ofNat 1, .item, "Dust"⟩] World.workbench =
        .ok (some (spell, spray)) := exists_answer (by decide +kernel)
  have fits : World.restocked.Fits := World.Countable.fits (by decide +kernel)
  have still : swapped.Fits := World.Countable.fits (by decide +kernel)
  have inTime : spell.InTime World.restocked (.new .amethystDust 5) :=
    ⟨⟨_, rfl, rfl, rfl⟩, rfl, rfl⟩
  obtain ⟨spray, evaluated⟩ := answered
  obtain ⟨moves, -⟩ := stale_recharges_transfer_exactly (w := World.restocked) evaluated rfl fits
  obtain ⟨-, idle⟩ := stale_recharges_transfer_exactly (w := swapped) evaluated rfl still
  obtain ⟨holder, amount, rest, -, transfers, -⟩ := moves _ inTime
  obtain rfl := Option.some.inj (transfers.selected.symm.trans rfl)
  obtain rfl : amount = 11000 := transfers.lesser.trans (by decide +kernel)
  obtain ⟨-, left⟩ := transfers.leaves.dust Media.dustUnit rfl
  refine ⟨⟨spray, evaluated⟩, rfl, fits, inTime, ⟨_, rest, transfers, ?_⟩,
    idle fun source now => ?_⟩
  · have used : 11000 ⌈/⌉ Media.dustUnit.toNat = 2 := by decide
    have had : (ItemStack.new .amethystDust 5).count.toNat = 5 := by decide
    apply UInt32.toNat_inj.mp
    change _ = 3
    omega
  · exact absurd now.same (by decide)

namespace CraftBattery

/-- A battery that can still be made: the hand holds a single bottle, and the target lives and
carries dust that is worth something. -/
structure InTime (spell : CraftBattery) (w : World) (source : ItemStack) (perItem : Media) :
    Prop where
  bottle : (w.held spell.hand).is .glassBottle = true
  single : (w.held spell.hand).count = 1
  carried : w.LivesWith spell.target source
  present : source.isEmpty = false
  dust : w.registry.capability? source.item = some (.dust perItem)
  worth : 0 < source.count.toNat * perItem.toNat

/-- A crafting spell that finds its single bottle, but lies on a living target that carries nothing.
-/
structure FindsNothing (spell : CraftBattery) (w : World) : Prop where
  bottle : (w.held spell.hand).is .glassBottle = true
  single : (w.held spell.hand).count = 1
  spent : ∃ source, w.LivesWith spell.target source ∧ source.isEmpty = true

variable {spell : CraftBattery} {w : World} {source : ItemStack}

theorem commit_of_inTime {perItem : Media} (fits : w.Fits)
    (inTime : spell.InTime w source perItem) :
    ∃ media : Media, media.toNat = source.count.toNat * perItem.toNat ∧
      spell.commit w = w.exchange spell.hand ⟨.battery, 1, media, some media⟩ spell.target
        { source with count := 0 } := by
  obtain ⟨bottle, single, carried, present, dust, worth⟩ := inTime
  have slot := carried.slot
  have valued : perItem ≠ 0 := by
    rintro rfl
    simp at worth
  obtain ⟨media, whole, drained⟩ := drain_dust (fits.slot slot) present dust valued
  have positive : media > 0 := by
    apply UInt64.lt_iff_toNat_lt.mpr
    rw [UInt64.toNat_zero, whole]
    exact worth
  refine ⟨media, whole, ?_⟩
  rw [commit_eq bottle single slot, drained, if_pos positive]
  rfl

theorem commit_of_nothing (bottle : (w.held spell.hand).is .glassBottle = true)
    (single : (w.held spell.hand).count = 1) (slot : w.entitySlot? spell.target = some source)
    (nothing : drain w.registry source false = (0, source)) :
    spell.commit w = w.exchange spell.hand (w.held spell.hand) spell.target source := by
  rw [commit_eq bottle single slot, nothing, if_neg (UInt64.lt_irrefl 0)]

theorem commit_of_findsNothing (idle : spell.FindsNothing w) :
    spell.commit w = w.kill spell.target := by
  obtain ⟨bottle, single, source, carried, empty⟩ := idle
  have slot := carried.slot
  rcases drain_nothing_or_dust w.registry source with nothing | ⟨_, present, -⟩
  · rw [commit_of_nothing bottle single slot (nothing false),
      World.exchange_self_of_isEmpty spell.hand slot empty]
  · rw [empty] at present
    cases present

theorem commit_of_late (late : ∀ source perItem, ¬ spell.InTime w source perItem)
    (finds : ¬ spell.FindsNothing w) : spell.commit w = w := by
  rcases spell.commit_cases w with idle | ⟨source, bottle, single, slot⟩
  · exact idle
  · have carried : w.LivesWith spell.target source := World.entitySlot?_eq_some.mp slot
    have present : source.isEmpty = false := by
      cases empty : source.isEmpty with
      | false => rfl
      | true => exact absurd ⟨bottle, single, source, carried, empty⟩ finds
    -- what yields nothing is written back as it was, and its target lives on
    rcases drain_nothing_or_dust w.registry source with nothing | ⟨perItem, -, dust, valued⟩
    · rw [commit_of_nothing bottle single slot (nothing false),
        World.exchange_self spell.hand slot present]
    · have counted : source.count.toNat ≠ 0 := by
        intro zero
        have : source.count = 0 := UInt32.toNat_inj.mp zero
        simp [ItemStack.isEmpty, this] at present
      have worth : 0 < source.count.toNat * perItem.toNat :=
        Nat.mul_pos (Nat.pos_of_ne_zero counted)
          (Nat.pos_of_ne_zero fun zero => valued (UInt64.toNat_inj.mp zero))
      exact absurd ⟨bottle, single, carried, present, dust, worth⟩ (late source perItem)

end CraftBattery

/-- A battery is made whole or not at all, however the world has changed since it was answered. In
time, the one bottle becomes a battery that is full with all that the dust of the target was worth,
and the target is left dead with none of it. In any other world the hands, the reserve and the
stacks of all entities stay, and so does everything else, unless there is a living target with
nothing on its stack to be found by whoever holds the one bottle: that target dies. -/
theorem stale_batteries_are_made_whole_or_not (spell : CraftBattery) {w : World}
    (fits : w.Fits) :
    (∀ source perItem, spell.InTime w source perItem → ∃ media : Media,
      media.toNat = source.count.toNat * perItem.toNat ∧
      (spell.commit w).held spell.hand = ⟨.battery, 1, media, some media⟩ ∧
      (spell.commit w).entityItem? spell.target = some { source with count := 0 } ∧
      (spell.commit w).isAlive spell.target = false ∧
      spell.commit w = w.exchange spell.hand ⟨.battery, 1, media, some media⟩ spell.target
        { source with count := 0 }) ∧
    ((∀ source perItem, ¬ spell.InTime w source perItem) →
      (spell.commit w).casterMedia = w.casterMedia ∧
      (∀ hand, (spell.commit w).held hand = w.held hand) ∧
      (∀ id, (spell.commit w).entityItem? id = w.entityItem? id) ∧
      (spell.FindsNothing w → spell.commit w = w.kill spell.target) ∧
      (¬ spell.FindsNothing w → spell.commit w = w)) := by
  refine ⟨fun source perItem inTime => ?_, fun late => ?_⟩
  · obtain ⟨media, whole, committed⟩ := CraftBattery.commit_of_inTime fits inTime
    refine ⟨media, whole, ?_, ?_, ?_, committed⟩
    · rw [committed, World.held_exchange, if_pos rfl]
    · rw [committed, World.entityItem?_exchange w _ _ _ inTime.carried.slot]
    · rw [committed, World.isAlive_exchange _ _ _ inTime.carried.slot]
      rfl
  · by_cases finds : spell.FindsNothing w
    · have committed := CraftBattery.commit_of_findsNothing finds
      rw [committed]
      exact ⟨rfl, fun hand => by cases hand <;> rfl, w.entityItem?_kill spell.target,
        fun _ => rfl, fun absent => absurd finds absent⟩
    · have committed := CraftBattery.commit_of_late late finds
      rw [committed]
      exact ⟨rfl, fun _ => rfl, fun _ => rfl, fun found => absurd found finds, fun _ => rfl⟩

/-- The five new pinches of dust are bottled by a spell that was answered for two; with the bottle
gone nothing happens. -/
theorem restocked_dust_is_bottled :
    let spell : CraftBattery := ⟨.ofNat 1, .main⟩
    let swapped := World.restocked.hold .main .empty
    World.restocked.Fits ∧ swapped.Fits ∧
    spell.InTime World.restocked (.new .amethystDust 5) Media.dustUnit ∧
    (spell.commit World.restocked).held .main = CraftBattery.battery 50000 ∧
    (spell.commit World.restocked).isAlive (.ofNat 1) = false ∧
    (∀ source perItem, ¬ spell.InTime swapped source perItem) ∧
    (spell.commit swapped).held .off = swapped.held .off := by
  intro spell swapped
  have fits : World.restocked.Fits := World.Countable.fits (by decide +kernel)
  have still : swapped.Fits := World.Countable.fits (by decide +kernel)
  have inTime : spell.InTime World.restocked (.new .amethystDust 5) Media.dustUnit :=
    ⟨rfl, rfl, ⟨_, rfl, rfl, rfl⟩, rfl, rfl, by decide⟩
  have late : ∀ source perItem, ¬ spell.InTime swapped source perItem :=
    fun source perItem inTime => absurd inTime.bottle (by decide)
  obtain ⟨makes, -⟩ := stale_batteries_are_made_whole_or_not spell fits
  obtain ⟨-, idle⟩ := stale_batteries_are_made_whole_or_not spell still
  obtain ⟨media, whole, made, -, dead, -⟩ := makes _ _ inTime
  obtain rfl : media = 50000 := UInt64.toNat_inj.mp (whole.trans (by decide))
  exact ⟨fits, still, inTime, made, dead, late, (idle late).2.1 .off⟩

end Spellcasting

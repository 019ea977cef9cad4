import Spellcasting.Proofs.Commits
import Spellcasting.Proofs.StockPrograms

/-! # No cast creates media

The media of a world is counted where it can lie: in the reserve of the caster, in the hands and
with the living. An exchange changes the count by what the hand gains and the target loses, so a
commit never raises it, whatever was committed before; the payment lowers it by what is drawn.
-/

namespace Spellcasting

namespace Roster

/-- The sum of a quantity over all entities. -/
def sum (r : Roster) (f : EntityState → Nat) : Nat :=
  r.entries.foldr (fun e total => f e + total) 0

theorem sum_entries_edit {entries : List EntityState} {id : EntityId} {e : EntityState}
    (distinct : (entries.map fun e => e.ref.id).Nodup)
    (found : entries.find? (·.ref.id = id) = some e) (f : EntityState → Nat) (change : Edit) :
    (entries.map fun e => if e.ref.id = id then change.apply e else e).foldr
        (fun e total => f e + total) 0 + f e =
      entries.foldr (fun e total => f e + total) 0 + f (change.apply e) := by
  induction entries with
  | nil => cases found
  | cons head rest ih =>
      obtain ⟨fresh, distinct⟩ := List.nodup_cons.mp distinct
      simp only [List.map_cons, List.foldr_cons]
      by_cases here : head.ref.id = id
      · simp only [List.find?_cons, here, decide_true, Option.some.injEq] at found
        subst found
        -- No later entry has the identity of the first, so the rest stays as it is.
        have kept : (rest.map fun e => if e.ref.id = id then change.apply e else e) = rest := by
          refine (List.map_congr_left fun other member => ?_).trans (List.map_id rest)
          have : other.ref.id ≠ id := fun same =>
            fresh (List.mem_map.mpr ⟨other, member, same.trans here.symm⟩)
          simp only [this, if_false, id_eq]
        rw [kept, if_pos here]
        omega
      · simp only [List.find?_cons, here, decide_false] at found
        have := ih distinct found
        rw [if_neg here]
        omega

theorem sum_edit {r : Roster} {id : EntityId} {e : EntityState} (found : r.find? id = some e)
    (f : EntityState → Nat) (change : Edit) :
    (r.edit id change).sum f + f e = r.sum f + f (change.apply e) :=
  sum_entries_edit r.distinct found f change

end Roster

namespace World

/-- What the living stack of an entity is worth. -/
def livingWorth (registry : MediaRegistry) (e : EntityState) : Nat :=
  if e.alive then (e.item.map registry.worth).getD 0 else 0

/-- All media of a world: the reserve of the caster, both hands, and the stacks of the living. -/
def total (w : World) : Nat :=
  w.casterMedia.toNat + w.registry.worth w.mainHand + w.registry.worth w.offHand +
    w.roster.sum (livingWorth w.registry)

/-- A world in which media is counted soundly: batteries are no dust, and no stack of dust is worth
more than fits a word. -/
structure Countable (w : World) : Prop where
  battery : ∀ perItem, w.registry.capability? .battery ≠ some (.dust perItem)
  held : ∀ hand, w.registry.Fits (w.held hand)
  carried : ∀ e ∈ w.roster.entries, ∀ stack ∈ e.item, w.registry.Fits stack

instance (w : World) : Decidable w.Countable :=
  match known : w.registry.capability? .battery with
  | some (.dust perItem) => .isFalse fun sound => sound.battery perItem known
  | some (.battery _ _) | none =>
      decidable_of_iff (w.registry.Fits w.mainHand ∧ w.registry.Fits w.offHand ∧
          ∀ e ∈ w.roster.entries, ∀ stack ∈ e.item, w.registry.Fits stack)
        ⟨fun ⟨main, off, carried⟩ =>
            { battery := fun _ dust => by rw [known] at dust; cases dust
              held := fun hand => by cases hand <;> assumption
              carried },
          fun sound => ⟨sound.held .main, sound.held .off, sound.carried⟩⟩

section

variable {w : World} {hand : Hand} {stack source rest : ItemStack} {target : EntityId}

variable (hand stack rest) in
theorem total_exchange (slot : w.entitySlot? target = some source) :
    (w.exchange hand stack target rest).total + w.registry.worth (w.held hand) +
        w.registry.worth source =
      w.total + w.registry.worth stack + w.registry.worth rest := by
  obtain ⟨e, found, alive, carried⟩ := entitySlot?_eq_some.mp slot
  have roster := Roster.sum_edit found (livingWorth w.registry) (.leaving rest)
  have before : livingWorth w.registry e = w.registry.worth source := by
    simp only [livingWorth, alive, carried, if_true, Option.map_some, Option.getD_some]
  have after : livingWorth w.registry ((Roster.Edit.leaving rest).apply e) =
      w.registry.worth rest := by
    simp only [livingWorth, Roster.Edit.apply, Roster.Edit.leaving, alive, Bool.true_and,
      Option.map_some, Option.getD_some]
    cases empty : rest.isEmpty with
    | true => exact (MediaRegistry.worth_of_isEmpty empty).symm
    | false => rfl
  rw [before, after] at roster
  cases hand with
  | main =>
      change w.casterMedia.toNat + w.registry.worth stack + w.registry.worth w.offHand +
        (w.roster.edit target (.leaving rest)).sum (livingWorth w.registry) +
          w.registry.worth w.mainHand + _ = _
      simp only [total]
      omega
  | off =>
      change w.casterMedia.toNat + w.registry.worth w.mainHand + w.registry.worth stack +
        (w.roster.edit target (.leaving rest)).sum (livingWorth w.registry) +
          w.registry.worth w.offHand + _ = _
      simp only [total]
      omega

theorem Countable.slot (sound : w.Countable) (slot : w.entitySlot? target = some source) :
    w.registry.Fits source := by
  obtain ⟨e, found, -, carried⟩ := entitySlot?_eq_some.mp slot
  exact sound.carried e (List.mem_of_find?_eq_some found) source carried

theorem Countable.exchange (sound : w.Countable) (slot : w.entitySlot? target = some source)
    (given : w.registry.Fits stack) (spent : source.Spent rest) :
    (w.exchange hand stack target rest).Countable := by
  refine ⟨?_, fun other => ?_, fun e member carried item => ?_⟩
  · rw [registry_exchange]
    exact sound.battery
  · rw [registry_exchange, held_exchange]
    split
    · exact given
    · exact sound.held other
  · rw [registry_exchange]
    obtain ⟨before, known, rfl⟩ := List.mem_map.mp member
    split at item
    · cases item
      exact (sound.slot slot).spent spent
    · exact sound.carried before known carried item

theorem Countable.exchange_total_le (sound : w.Countable) (slot : w.entitySlot? target = some source)
    (given : w.registry.Fits stack) (spent : source.Spent rest)
    (loses : w.registry.worth stack + w.registry.worth rest ≤
      w.registry.worth (w.held hand) + w.registry.worth source) :
    (w.exchange hand stack target rest).Countable ∧
      (w.exchange hand stack target rest).total ≤ w.total := by
  have balance := total_exchange hand stack rest slot
  exact ⟨sound.exchange slot given spent, by omega⟩

end

end World

theorem Recharge.commit_total_le (spell : Recharge) {w : World} (sound : w.Countable) :
    (spell.commit w).Countable ∧ (spell.commit w).total ≤ w.total := by
  rcases spell.commit_cases w with idle | ⟨source, holder, slot, same, found⟩
  · rw [idle]
    exact ⟨sound, Nat.le_refl _⟩
  · let drawn := w.registry.extract source (.units holder.freeCapacity) false
    have spent : source.Spent drawn.2 := w.registry.extract_spent source _ false
    have lost : w.registry.worth drawn.2 + drawn.1.toNat ≤ w.registry.worth source :=
      MediaRegistry.worth_extract_le (sound.slot slot) _
    have gained := MediaRegistry.worth_insert found (.units drawn.1)
    obtain ⟨filled, accepted, -⟩ := MediaHolder.insert_eq holder (.units drawn.1)
    have accepted := UInt64.le_iff_toNat_le.mp accepted
    rw [MediaAmount.toNat_clamp_units] at accepted
    obtain ⟨-, -, whole⟩ := MediaRegistry.findHolder_eq_some.mp found
    have commits : spell.commit w = w.exchange spell.hand
        (holder.insert (.units drawn.1) false).2.stack spell.target drawn.2 :=
      commit_eq slot same found
    rw [commits]
    refine sound.exchange_total_le slot (fun perItem dust => ?_) spent (by omega)
    rw [filled] at dust ⊢
    rw [whole] at dust ⊢
    exact sound.held spell.hand perItem dust

/-- Only a battery that is dust could count for more than the media it stores. -/
theorem World.Countable.worth_battery_le {w : World} (sound : w.Countable) (media : Media) :
    w.registry.worth (CraftBattery.battery media) ≤ media.toNat := by
  unfold MediaRegistry.worth
  split
  · exact Nat.zero_le _
  · next holder found =>
      obtain ⟨-, capability, whole⟩ := MediaRegistry.findHolder_eq_some.mp found
      obtain ⟨stack, kind⟩ := holder
      cases whole
      cases kind with
      | dust perItem => exact absurd capability (sound.battery perItem)
      | battery capacity rechargeable => exact Nat.le_refl _

theorem CraftBattery.commit_total_le (spell : CraftBattery) {w : World} (sound : w.Countable) :
    (spell.commit w).Countable ∧ (spell.commit w).total ≤ w.total := by
  rcases spell.commit_cases w with idle | ⟨source, bottle, single, slot⟩
  · rw [idle]
    exact ⟨sound, Nat.le_refl _⟩
  · let drawn := drain w.registry source false
    let made := if drawn.1 > 0 then battery drawn.1 else w.held spell.hand
    have spent : source.Spent drawn.2 := drain_spent w.registry source false
    have lost : w.registry.worth drawn.2 + drawn.1.toNat ≤ w.registry.worth source :=
      worth_drain_le (sound.slot slot)
    have commits : spell.commit w = w.exchange spell.hand made spell.target drawn.2 :=
      commit_eq bottle single slot
    rw [commits]
    have given : w.registry.Fits made := by
      intro perItem dust
      by_cases positive : drawn.1 > 0
      · simp only [made, if_pos positive] at dust
        exact absurd dust (sound.battery perItem)
      · simp only [made, if_neg positive] at dust ⊢
        exact sound.held spell.hand perItem dust
    have stored : w.registry.worth made ≤
        w.registry.worth (w.held spell.hand) + drawn.1.toNat := by
      simp only [made]
      split
      · exact Nat.le_trans (sound.worth_battery_le drawn.1) (Nat.le_add_left _ _)
      · exact Nat.le_add_right _ _
    exact sound.exchange_total_le slot given spent (by omega)

/-- No stock spell makes media, whatever the world has become since it was answered. -/
theorem Spell.CapturedIn.commit_total_le {w past : World} {args : List Iota}
    {spell : Spell World} (captured : spell.CapturedIn past args) (sound : w.Countable) :
    (spell.commit w).Countable ∧ (spell.commit w).total ≤ w.total := by
  cases captured with
  | recharge => exact Recharge.commit_total_le _ sound
  | craftBattery => exact CraftBattery.commit_total_le _ sound

theorem Spell.commitAll_total_le {past : World} {spells : List (Spell World)}
    (captured : ∀ spell ∈ spells, ∃ args, spell.CapturedIn past args) {w : World}
    (sound : w.Countable) :
    (spells.foldl (fun w spell => spell.commit w) w).Countable ∧
      (spells.foldl (fun w spell => spell.commit w) w).total ≤ w.total := by
  refine List.foldlRecOn (motive := fun now : World => now.Countable ∧ now.total ≤ w.total)
    spells _ ⟨sound, Nat.le_refl _⟩ ?_
  intro now ⟨stillSound, less⟩ spell asked
  obtain ⟨args, answered⟩ := captured spell asked
  obtain ⟨next, least⟩ := answered.commit_total_le stillSound
  exact ⟨next, Nat.le_trans least less⟩

/-- One cast of many: the state it starts from and its program. -/
structure StockCast where
  state : CastingState
  steps : List (Instruction StockOperator)

namespace StockCast

/-- Casts the program in a world. -/
def run (c : StockCast) (w : World) : CastingState × World × Except CastFailure CastReport :=
  c.state.castBatch (StockOperator.program c.steps) w

/-- What a cast drew from the caster, nothing if it was rejected. -/
def drawn : Except CastFailure CastReport → Nat
  | .ok report => report.mediaDrawn.toNat
  | .error _ => 0

/-- A cast lowers the media of the world by what it draws, or by more. -/
theorem run_total_le (c : StockCast) {w : World} (sound : w.Countable) :
    (c.run w).2.1.Countable ∧ (c.run w).2.1.total + drawn (c.run w).2.2 ≤ w.total := by
  unfold run
  rcases cast : c.state.castBatch (StockOperator.program c.steps) w with ⟨after, w', result⟩
  cases result with
  | error failure =>
      obtain ⟨-, -, rfl⟩ := World.castBatch_error cast
      exact ⟨sound, Nat.le_refl _⟩
  | ok report =>
      obtain ⟨effects, paid, accepts⟩ := CastingState.castBatch_ok cast
      obtain ⟨enough, rfl⟩ := CastingState.pay_ok accepts.payment
      -- The payment touches neither hands nor entities, so the world stays countable.
      have stillSound : { w with casterMedia := w.casterMedia - report.mediaDrawn }.Countable :=
        ⟨sound.battery, sound.held, sound.carried⟩
      have paid : { w with casterMedia := w.casterMedia - report.mediaDrawn }.total +
          report.mediaDrawn.toNat = w.total := by
        have less := UInt64.toNat_sub_of_le _ _ enough
        have enough := UInt64.le_iff_toNat_le.mp enough
        simp only [World.total, less]
        omega
      obtain ⟨committed, least⟩ := Spell.commitAll_total_le accepts.run.captured stillSound
      rw [← accepts.committed] at committed least
      refine ⟨committed, ?_⟩
      simp only [drawn]
      omega

end StockCast

namespace World

/-- The world after some casts, one after the other. -/
def afterCasts (w : World) (casts : List StockCast) : World :=
  casts.foldl (fun w c => (c.run w).2.1) w

theorem afterCasts_total_le {w : World} (sound : w.Countable) (casts : List StockCast) :
    (w.afterCasts casts).Countable ∧ (w.afterCasts casts).total ≤ w.total := by
  induction casts generalizing w with
  | nil => exact ⟨sound, Nat.le_refl _⟩
  | cons c rest ih =>
      obtain ⟨now, less⟩ := c.run_total_le sound
      obtain ⟨after, least⟩ := ih now
      exact ⟨after, Nat.le_trans least (Nat.le_trans (Nat.le_add_right _ _) less)⟩

end World

/-- No run creates media: over any casts of stock programs the media of a countable world never
grows, and each of the casts lowers it by at least what it drew. -/
theorem casts_create_no_media (w : World) (sound : w.Countable) (casts : List StockCast) :
    (w.afterCasts casts).total ≤ w.total ∧
    ∀ before c later, casts = before ++ c :: later →
      (c.run (w.afterCasts before)).2.1.total + StockCast.drawn (c.run (w.afterCasts before)).2.2 ≤
        (w.afterCasts before).total := by
  refine ⟨(World.afterCasts_total_le sound casts).2, fun before c later _ => ?_⟩
  exact (c.run_total_le (World.afterCasts_total_le sound before).1).2

/-- Both spells in one cast: only the price and what rounding loses go missing. -/
theorem workbench_casts_create_no_media :
    let cast : StockCast := ⟨.new .standard [], World.workbenchSteps⟩
    World.workbench.Countable ∧
    (cast.run .workbench).2.1.total + StockCast.drawn (cast.run .workbench).2.2 ≤
      World.workbench.total ∧
    StockCast.drawn (cast.run .workbench).2.2 = 150000 := by
  intro cast
  have sound : World.workbench.Countable := by decide +kernel
  refine ⟨sound, ?_, by decide +kernel⟩
  have lowered := (casts_create_no_media .workbench sound [cast]).2 [] cast [] rfl
  rwa [World.afterCasts, List.foldl_nil] at lowered

end Spellcasting

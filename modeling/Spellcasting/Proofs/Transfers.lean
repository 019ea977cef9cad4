import Mathlib.Algebra.Order.Floor.Div
import Mathlib.GroupTheory.GroupAction.Ring
import Spellcasting.Proofs.Conservation

/-! # What a transfer moves

What is drawn from a stack is what was asked for, as far as there is that much; a stack that has
given all it had is worth nothing, and one that gave nothing is as it was. A holder that is offered
no more than it has room for takes all of it. So a recharge whose target and holder are there moves
the lesser of what the holder has room for and what the target is worth.
-/

namespace Spellcasting

theorem MediaAmount.clamp_zero (amount : MediaAmount) : amount.clamp 0 = 0 :=
  UInt64.le_antisymm (amount.clamp_le 0) (UInt64.le_iff_toNat_le.mpr (Nat.zero_le _))

namespace MediaHolder

theorem canProvide_eq_true (h : MediaHolder) : h.canProvide = true := by
  unfold canProvide
  split <;> rfl

theorem withdraw_fst (h : MediaHolder) (amount : MediaAmount) (simulate : Bool) :
    (h.withdraw amount simulate).1 = amount.clamp h.media := by
  obtain ⟨stack, capability⟩ := h
  cases capability with
  | battery capacity rechargeable => cases simulate <;> rfl
  | dust perItem =>
      simp only [withdraw]
      split
      · next worthless => simp only [media, worthless, UInt64.mul_zero, MediaAmount.clamp_zero]
      · split <;> rfl

theorem withdraw_nothing {h : MediaHolder} {amount : MediaAmount}
    (nothing : (h.withdraw amount false).1 = 0) : (h.withdraw amount false).2.stack = h.stack := by
  obtain ⟨stack, capability⟩ := h
  cases capability with
  | battery capacity rechargeable =>
      change amount.clamp stack.media = 0 at nothing
      change { stack with media := stack.media - amount.clamp stack.media } = stack
      rw [nothing, UInt64.sub_zero]
  | dust perItem =>
      rw [withdraw_fst] at nothing
      simp only [withdraw, nothing]
      split <;> rfl

theorem insert_units {h : MediaHolder} {amount : Media} (room : amount ≤ h.freeCapacity) :
    h.insert (.units amount) false =
      (amount, ⟨{ h.stack with media := h.stack.media + amount }, h.capability⟩) := by
  obtain ⟨stack, capability⟩ := h
  cases capability with
  | battery capacity rechargeable =>
      have whole : (MediaAmount.units amount).clamp
          (Media.less (stack.maxMedia.getD capacity) stack.media) = amount := if_pos room
      simp only [insert, maxMedia, whole]
      rfl
  | dust perItem =>
      have nothing : amount = 0 :=
        UInt64.le_antisymm room (UInt64.le_iff_toNat_le.mpr (Nat.zero_le _))
      rw [nothing, UInt64.add_zero]
      rfl

theorem toNat_media_add {h : MediaHolder} {amount : Media} (room : amount ≤ h.freeCapacity) :
    (h.stack.media + amount).toNat = h.stack.media.toNat + amount.toNat := by
  have sum := h.toNat_media_insert (.units amount)
  rwa [insert_units room] at sum

theorem toNat_freeCapacity_battery {h : MediaHolder} {capacity : Media} {rechargeable : Bool}
    (battery : h.capability = .battery capacity rechargeable) :
    h.freeCapacity.toNat = h.maxMedia.toNat - h.stack.media.toNat := by
  obtain ⟨stack, capability⟩ := h
  cases battery
  exact Media.toNat_less _ _

theorem toNat_freeCapacity {h : MediaHolder} (recharges : h.canRecharge = true) :
    h.freeCapacity.toNat = h.maxMedia.toNat - h.stack.media.toNat := by
  cases kind : h.capability with
  | dust perItem => simp [canRecharge, kind] at recharges
  | battery capacity rechargeable => exact toNat_freeCapacity_battery kind

end MediaHolder

namespace MediaRegistry

variable {r : MediaRegistry} {stack : ItemStack} {amount : MediaAmount}

/-- How much media can be drawn from a stack. -/
def withdrawable (r : MediaRegistry) (stack : ItemStack) : Media :=
  (r.extract stack .unlimited true).1

theorem extract_of_findHolder {holder : MediaHolder} (found : r.findHolder stack = some holder)
    (amount : MediaAmount) (simulate : Bool) :
    r.extract stack amount simulate =
      ((holder.withdraw amount simulate).1, (holder.withdraw amount simulate).2.stack) := by
  simp only [extract, found, holder.canProvide_eq_true, if_true]

theorem extract_cases (r : MediaRegistry) (stack : ItemStack) :
    (∀ amount simulate, r.extract stack amount simulate = (0, stack)) ∨
    ∃ holder, r.findHolder stack = some holder ∧ ∀ amount simulate,
      r.extract stack amount simulate =
        ((holder.withdraw amount simulate).1, (holder.withdraw amount simulate).2.stack) := by
  cases found : r.findHolder stack with
  | none => exact .inl fun amount simulate => by simp only [extract, found]
  | some holder => exact .inr ⟨holder, rfl, extract_of_findHolder found⟩

theorem isMediaItem_eq (r : MediaRegistry) (stack : ItemStack) :
    r.isMediaItem stack = decide (0 < r.withdrawable stack) := by
  unfold isMediaItem withdrawable extract
  cases r.findHolder stack with
  | none => rfl
  | some holder => cases provides : holder.canProvide <;> simp [provides]

theorem toNat_withdrawable (r : MediaRegistry) (stack : ItemStack) :
    (r.withdrawable stack).toNat = r.worth stack := by
  unfold withdrawable worth
  cases found : r.findHolder stack with
  | none => simp only [extract, found, UInt64.toNat_zero]
  | some holder =>
      simp only [extract_of_findHolder found, MediaHolder.withdraw_fst]
      rfl

theorem extract_fst (r : MediaRegistry) (stack : ItemStack) (amount : MediaAmount) :
    (r.extract stack amount false).1 = amount.clamp (r.withdrawable stack) := by
  rcases r.extract_cases stack with idle | ⟨holder, found, given⟩
  · simp only [withdrawable, idle, MediaAmount.clamp_zero]
  · simp only [withdrawable, given, MediaHolder.withdraw_fst]
    rfl

theorem extract_nothing (nothing : (r.extract stack amount false).1 = 0) :
    (r.extract stack amount false).2 = stack := by
  rcases r.extract_cases stack with idle | ⟨holder, found, given⟩
  · rw [idle]
  · rw [given] at nothing ⊢
    exact (MediaHolder.withdraw_nothing nothing).trans (findHolder_eq_some.mp found).2.2

theorem extract_all (fits : r.Fits stack)
    (all : (r.extract stack amount false).1 = r.withdrawable stack) :
    r.withdrawable (r.extract stack amount false).2 = 0 := by
  have lost := worth_extract_le fits amount
  rw [all, toNat_withdrawable] at lost
  apply UInt64.toNat_inj.mp
  rw [toNat_withdrawable, UInt64.toNat_zero]
  omega

theorem extract_short {asked : Media} (fits : r.Fits stack)
    (short : (r.withdrawable stack).toNat ≤ asked.toNat) :
    r.withdrawable (r.extract stack (.units asked) false).2 = 0 := by
  refine extract_all fits ?_
  apply UInt64.toNat_inj.mp
  rw [extract_fst, MediaAmount.toNat_clamp_units]
  omega

/-- What is left of a stack that an amount was drawn from: a battery has lost just that much media,
dust as many whole items as cover it, and any other stack gives nothing. -/
structure Leaves (r : MediaRegistry) (stack : ItemStack) (amount : Nat) (rest : ItemStack) :
    Prop where
  battery : ∀ capacity rechargeable,
    r.capability? stack.item = some (.battery capacity rechargeable) →
    rest = { stack with media := rest.media } ∧ rest.media.toNat + amount = stack.media.toNat
  dust : ∀ perItem, r.capability? stack.item = some (.dust perItem) →
    rest = { stack with count := rest.count } ∧
      rest.count.toNat + amount ⌈/⌉ perItem.toNat = stack.count.toNat
  other : r.capability? stack.item = none → amount = 0 ∧ rest = stack

theorem Leaves.nothing (r : MediaRegistry) (stack : ItemStack) : r.Leaves stack 0 stack where
  battery _ _ _ := ⟨rfl, rfl⟩
  dust _ _ := ⟨rfl, by rw [zero_ceilDiv, Nat.add_zero]⟩
  other _ := ⟨rfl, rfl⟩

theorem withdraw_leaves {holder : MediaHolder} (fits : r.Fits stack)
    (found : r.findHolder stack = some holder) (amount : MediaAmount) :
    r.Leaves stack (holder.withdraw amount false).1.toNat
      (holder.withdraw amount false).2.stack := by
  obtain ⟨-, known, rfl⟩ := findHolder_eq_some.mp found
  obtain ⟨stack, capability⟩ := holder
  refine ⟨fun capacity rechargeable battery => ?_, fun perItem dust => ?_, fun unknown => ?_⟩
  · obtain rfl := Option.some.inj (known.symm.trans battery)
    have taken := amount.clamp_le stack.media
    refine ⟨rfl, ?_⟩
    change (stack.media - amount.clamp stack.media).toNat + (amount.clamp stack.media).toNat =
      stack.media.toNat
    rw [UInt64.toNat_sub_of_le _ _ taken]
    exact Nat.sub_add_cancel (UInt64.le_iff_toNat_le.mp taken)
  · obtain rfl := Option.some.inj (known.symm.trans dust)
    by_cases worthless : perItem = 0
    · subst worthless
      exact (Leaves.nothing r stack).dust 0 known
    · obtain ⟨count, after, gone⟩ := MediaHolder.withdraw_dust worthless (fits perItem dust) amount
      rw [after]
      exact ⟨rfl, gone⟩
  · rw [known] at unknown
    cases unknown

theorem extract_leaves (fits : r.Fits stack) (amount : MediaAmount) :
    r.Leaves stack (r.extract stack amount false).1.toNat (r.extract stack amount false).2 := by
  rcases r.extract_cases stack with idle | ⟨holder, found, given⟩
  · rw [idle]
    exact .nothing r stack
  · rw [given]
    exact withdraw_leaves fits found amount

end MediaRegistry

namespace CraftBattery

variable {r : MediaRegistry} {stack : ItemStack}

/-- Only dust that is worth something may go into a battery. -/
theorem drain_nothing_or_dust (r : MediaRegistry) (stack : ItemStack) :
    (∀ simulate, drain r stack simulate = (0, stack)) ∨
    ∃ perItem, stack.isEmpty = false ∧ r.capability? stack.item = some (.dust perItem) ∧
      perItem ≠ 0 := by
  cases found : r.findHolder stack with
  | none => exact .inl fun simulate => by simp only [drain, found]
  | some holder =>
      obtain ⟨present, known, rfl⟩ := MediaRegistry.findHolder_eq_some.mp found
      obtain ⟨stack, capability⟩ := holder
      cases capability with
      | battery capacity rechargeable =>
          exact .inl fun simulate => by
            simp [drain, found, MediaHolder.canConstructBattery]
      | dust perItem =>
          by_cases worthless : perItem = 0
          · exact .inl fun simulate => by
              simp [drain, found, MediaHolder.canProvide, MediaHolder.canConstructBattery,
                MediaHolder.withdraw, worthless]
          · exact .inr ⟨perItem, present, known, worthless⟩

theorem drain_dust {perItem : Media} (fits : r.Fits stack) (present : stack.isEmpty = false)
    (dust : r.capability? stack.item = some (.dust perItem)) (valued : perItem ≠ 0) :
    ∃ media : Media, media.toNat = stack.count.toNat * perItem.toNat ∧
      drain r stack false = (media, { stack with count := 0 }) := by
  have found : r.findHolder stack = some ⟨stack, .dust perItem⟩ :=
    MediaRegistry.findHolder_eq_some.mpr ⟨present, dust, rfl⟩
  let holder : MediaHolder := ⟨stack, .dust perItem⟩
  have whole : holder.media.toNat = stack.count.toNat * perItem.toNat :=
    MediaHolder.toNat_media_dust (fits perItem dust)
  obtain ⟨count, after, gone⟩ := MediaHolder.withdraw_dust valued (fits perItem dust) .unlimited
  change count.toNat + Media.portions holder.media perItem = stack.count.toNat at gone
  have covered := Media.le_portions_mul holder.media valued
  rw [whole] at covered
  have pos : 0 < perItem.toNat := Nat.pos_of_ne_zero fun h => valued (UInt64.toNat_inj.mp h)
  have all := Nat.le_of_mul_le_mul_right covered pos
  have used : count = 0 := UInt32.toNat_inj.mp (by rw [UInt32.toNat_zero]; omega)
  refine ⟨holder.media, whole, ?_⟩
  simp only [drain, found, MediaHolder.canProvide, MediaHolder.canConstructBattery, Bool.and_self,
    if_true, after, used]
  rfl

end CraftBattery

namespace World

/-- No stack of dust in the world, held or carried, is worth more than fits a word. -/
structure Fits (w : World) : Prop where
  held : ∀ hand, w.registry.Fits (w.held hand)
  carried : ∀ e ∈ w.roster.entries, ∀ stack ∈ e.item, w.registry.Fits stack

variable {w : World}

theorem Countable.fits (sound : w.Countable) : w.Fits := ⟨sound.held, sound.carried⟩

theorem Fits.slot (fits : w.Fits) {id : EntityId} {source : ItemStack}
    (slot : w.entitySlot? id = some source) : w.registry.Fits source := by
  obtain ⟨e, found, -, carried⟩ := entitySlot?_eq_some.mp slot
  exact fits.carried e (List.mem_of_find?_eq_some found) source carried

end World

namespace Recharge

variable {spell : Recharge} {w : World} {source : ItemStack} {holder : MediaHolder}

/-- What moves from a stack into a holder: the lesser of what the one gives and the other takes. -/
def moved (r : MediaRegistry) (source : ItemStack) (holder : MediaHolder) : Media :=
  (MediaAmount.units holder.freeCapacity).clamp (r.withdrawable source)

theorem toNat_moved (r : MediaRegistry) (source : ItemStack) (holder : MediaHolder) :
    (moved r source holder).toNat =
      min holder.freeCapacity.toNat (r.withdrawable source).toNat :=
  MediaAmount.toNat_clamp_units ..

theorem moved_le (r : MediaRegistry) (source : ItemStack) (holder : MediaHolder) :
    moved r source holder ≤ holder.freeCapacity := by
  apply UInt64.le_iff_toNat_le.mpr
  rw [toNat_moved]
  exact Nat.min_le_left _ _

theorem toNat_media_moved (r : MediaRegistry) (source : ItemStack) (holder : MediaHolder) :
    (holder.stack.media + moved r source holder).toNat =
      holder.stack.media.toNat +
        min holder.freeCapacity.toNat (r.withdrawable source).toNat := by
  rw [MediaHolder.toNat_media_add (moved_le r source holder), toNat_moved]

theorem commit_eq_moved (slot : w.entitySlot? spell.target = some source)
    (same : (w.held spell.hand).item = spell.holderItem)
    (found : w.registry.findHolder (w.held spell.hand) = some holder) :
    spell.commit w = w.exchange spell.hand
      { w.held spell.hand with
        media := (w.held spell.hand).media + moved w.registry source holder }
      spell.target (w.registry.extract source (.units holder.freeCapacity) false).2 := by
  have drawn : (w.registry.extract source (.units holder.freeCapacity) false).1 =
      moved w.registry source holder := w.registry.extract_fst source _
  rw [commit_eq slot same found, drawn, MediaHolder.insert_units (moved_le _ source holder),
    (MediaRegistry.findHolder_eq_some.mp found).2.2]

end Recharge

end Spellcasting

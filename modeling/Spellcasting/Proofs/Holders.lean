import Spellcasting.Media.Registry

/-! # What holders give and take

A transfer only ever takes items and media away from the stack it draws on: `Spent` keeps that
apart from how much the transfer is worth. Worth is counted in natural numbers; where the items of
a stack of dust are worth no more than fits a word, media drawn from a stack is at most what the
stack loses in worth, and media put into a battery is exactly what the battery gains.
-/

namespace Spellcasting

namespace Media

theorem le_portions_mul (a : Media) {size : Media} (positive : size ≠ 0) :
    a.toNat ≤ portions a size * size.toNat := by
  have pos : 0 < size.toNat := Nat.pos_of_ne_zero fun h => positive (UInt64.toNat_inj.mp h)
  have above := Nat.lt_mul_div_succ (a.toNat + size.toNat - 1) pos
  rw [Nat.mul_add, Nat.mul_comm] at above
  unfold portions
  omega

theorem portions_le {a size : Media} {n : Nat} (positive : size ≠ 0)
    (covered : a.toNat ≤ n * size.toNat) : portions a size ≤ n := by
  have pos : 0 < size.toNat := Nat.pos_of_ne_zero fun h => positive (UInt64.toNat_inj.mp h)
  unfold portions
  rw [← Nat.lt_succ_iff, Nat.div_lt_iff_lt_mul pos, Nat.succ_mul]
  omega

end Media

theorem MediaAmount.toNat_clamp_units (a available : Media) :
    ((MediaAmount.units a).clamp available).toNat = min a.toNat available.toNat := by
  simp only [clamp]
  split
  · next h => rw [Nat.min_eq_left (UInt64.le_iff_toNat_le.mp h)]
  · next h =>
      have := UInt64.lt_iff_toNat_lt.mp (UInt64.not_le.mp h)
      rw [Nat.min_eq_right (by omega)]

namespace ItemStack

/-- What is left of a stack after some of it was taken: the same item with no more of it and no more
media. -/
structure Spent (stack rest : ItemStack) : Prop where
  item : rest.item = stack.item
  maxMedia : rest.maxMedia = stack.maxMedia
  count : rest.count ≤ stack.count
  media : rest.media ≤ stack.media

theorem Spent.refl (stack : ItemStack) : Spent stack stack :=
  ⟨rfl, rfl, UInt32.le_refl _, UInt64.le_refl _⟩

theorem Spent.trans {a b c : ItemStack} (first : Spent a b) (later : Spent b c) : Spent a c :=
  ⟨later.item.trans first.item, later.maxMedia.trans first.maxMedia,
    UInt32.le_trans later.count first.count, UInt64.le_trans later.media first.media⟩

theorem toNat_shrink (stack : ItemStack) (amount : UInt32) :
    (stack.shrink amount).count.toNat = stack.count.toNat - amount.toNat := by
  simp only [shrink]
  split
  · next h => exact UInt32.toNat_sub_of_le _ _ h
  · next h =>
      have := UInt32.lt_iff_toNat_lt.mp (UInt32.not_le.mp h)
      simp only [UInt32.toNat_zero]
      omega

theorem spent_shrink (stack : ItemStack) (amount : UInt32) : Spent stack (stack.shrink amount) := by
  refine ⟨rfl, rfl, UInt32.le_iff_toNat_le.mpr ?_, UInt64.le_refl _⟩
  rw [toNat_shrink]
  omega

end ItemStack

namespace MediaHolder

/-- The items of a stack of dust are together worth no more than fits a word. -/
def Fits (h : MediaHolder) : Prop :=
  ∀ perItem, h.capability = .dust perItem →
    h.stack.count.toNat * perItem.toNat < UInt64.size

theorem toNat_media_dust {stack : ItemStack} {perItem : Media}
    (fits : stack.count.toNat * perItem.toNat < UInt64.size) :
    (⟨stack, .dust perItem⟩ : MediaHolder).media.toNat = stack.count.toNat * perItem.toNat := by
  simp only [media, UInt64.toNat_mul, UInt32.toNat_toUInt64]
  exact Nat.mod_eq_of_lt fits

theorem withdraw_capability (h : MediaHolder) (amount : MediaAmount) (simulate : Bool) :
    (h.withdraw amount simulate).2.capability = h.capability := by
  obtain ⟨stack, capability⟩ := h
  cases capability with
  | battery capacity rechargeable => cases simulate <;> rfl
  | dust perItem =>
      simp only [withdraw]
      split
      · rfl
      · split <;> rfl

theorem withdraw_spent (h : MediaHolder) (amount : MediaAmount) (simulate : Bool) :
    h.stack.Spent (h.withdraw amount simulate).2.stack := by
  obtain ⟨stack, capability⟩ := h
  cases capability with
  | battery capacity rechargeable =>
      cases simulate with
      | true => exact .refl stack
      | false =>
          refine ⟨rfl, rfl, UInt32.le_refl _, UInt64.le_iff_toNat_le.mpr ?_⟩
          have taken := amount.clamp_le stack.media
          simp only [withdraw, Bool.false_eq_true, if_false]
          rw [UInt64.toNat_sub_of_le _ _ taken]
          omega
  | dust perItem =>
      simp only [withdraw]
      split
      · exact .refl stack
      · split
        · exact .refl stack
        · exact stack.spent_shrink _

/-- Dust gives up as many whole items as cover what is taken. -/
theorem withdraw_dust {stack : ItemStack} {perItem : Media} (valued : perItem ≠ 0)
    (fits : stack.count.toNat * perItem.toNat < UInt64.size) (amount : MediaAmount) :
    let taken := amount.clamp (⟨stack, .dust perItem⟩ : MediaHolder).media
    ∃ count, (⟨stack, .dust perItem⟩ : MediaHolder).withdraw amount false =
        (taken, ⟨{ stack with count }, .dust perItem⟩) ∧
      count.toNat + Media.portions taken perItem = stack.count.toNat := by
  intro taken
  have within : taken.toNat ≤ stack.count.toNat * perItem.toNat := by
    rw [← toNat_media_dust fits]
    exact UInt64.le_iff_toNat_le.mp (amount.clamp_le _)
  have used := Media.portions_le valued within
  by_cases nothing : taken = 0
  · have unused : Media.portions taken perItem = 0 :=
      Nat.le_zero.mp (Media.portions_le valued (by simp [nothing]))
    refine ⟨stack.count, ?_, by rw [unused]; rfl⟩
    simp only [withdraw, valued, if_false, Bool.false_or, decide_eq_true_eq]
    exact if_pos nothing
  · let gone := UInt32.ofNat (min (Media.portions taken perItem) (UInt32.size - 1))
    have bound := stack.count.toNat_lt_size
    refine ⟨(stack.shrink gone).count, ?_, ?_⟩
    · simp only [withdraw, valued, if_false, Bool.false_or, decide_eq_true_eq]
      exact if_neg nothing
    · have whole : gone.toNat = Media.portions taken perItem := by
        simp only [gone]
        rw [Nat.min_eq_left (by omega), UInt32.toNat_ofNat_of_lt' (by omega)]
      rw [ItemStack.toNat_shrink]
      omega

theorem withdraw_media_le {h : MediaHolder} (fits : h.Fits) (amount : MediaAmount) :
    (h.withdraw amount false).2.media.toNat + (h.withdraw amount false).1.toNat ≤
      h.media.toNat := by
  obtain ⟨stack, capability⟩ := h
  cases capability with
  | battery capacity rechargeable =>
      have taken := amount.clamp_le stack.media
      change (stack.media - amount.clamp stack.media).toNat + (amount.clamp stack.media).toNat ≤
        stack.media.toNat
      rw [UInt64.toNat_sub_of_le _ _ taken]
      have := UInt64.le_iff_toNat_le.mp taken
      omega
  | dust perItem =>
      by_cases worthless : perItem = 0
      · simp only [withdraw, worthless, if_true, UInt64.toNat_zero]
        omega
      · have fits : stack.count.toNat * perItem.toNat < UInt64.size := fits perItem rfl
        obtain ⟨count, after, gone⟩ := withdraw_dust worthless fits amount
        have covered := Media.le_portions_mul (amount.clamp (mk stack (.dust perItem)).media) worthless
        have worth := congrArg (· * perItem.toNat) gone
        simp only [Nat.add_mul] at worth
        have still : count.toNat * perItem.toNat < UInt64.size :=
          Nat.lt_of_le_of_lt (by omega) fits
        have left := @toNat_media_dust { stack with count } perItem still
        rw [after, toNat_media_dust fits]
        simp only at left ⊢
        omega

theorem insert_eq (h : MediaHolder) (amount : MediaAmount) :
    let accepted := (h.insert amount false).1
    (h.insert amount false).2 =
        ⟨{ h.stack with media := h.stack.media + accepted }, h.capability⟩ ∧
      accepted ≤ amount.clamp h.freeCapacity ∧
      accepted.toNat ≤ h.maxMedia.toNat - h.stack.media.toNat := by
  obtain ⟨stack, capability⟩ := h
  cases capability with
  | dust perItem =>
      refine ⟨?_, UInt64.le_iff_toNat_le.mpr (Nat.zero_le _), Nat.zero_le _⟩
      simp only [insert, UInt64.add_zero]
  | battery capacity rechargeable =>
      refine ⟨rfl, UInt64.le_refl _, ?_⟩
      have bounded := UInt64.le_iff_toNat_le.mp
        (amount.clamp_le (Media.less (stack.maxMedia.getD capacity) stack.media))
      rw [Media.toNat_less] at bounded
      exact bounded

theorem toNat_media_insert (h : MediaHolder) (amount : MediaAmount) :
    (h.stack.media + (h.insert amount false).1).toNat =
      h.stack.media.toNat + (h.insert amount false).1.toNat := by
  obtain ⟨-, -, room⟩ := insert_eq h amount
  have most := h.maxMedia.toNat_lt_size
  have now := h.stack.media.toNat_lt_size
  rw [UInt64.toNat_add]
  exact Nat.mod_eq_of_lt (by change _ < UInt64.size; omega)

theorem media_insert (h : MediaHolder) (amount : MediaAmount) :
    (h.insert amount false).2.media.toNat = h.media.toNat + (h.insert amount false).1.toNat := by
  have sum := toNat_media_insert h amount
  obtain ⟨stack, capability⟩ := h
  cases capability with
  | dust perItem => rfl
  | battery capacity rechargeable => exact sum

end MediaHolder

namespace MediaRegistry

theorem findHolder_eq_some {r : MediaRegistry} {stack : ItemStack} {holder : MediaHolder} :
    r.findHolder stack = some holder ↔
      stack.isEmpty = false ∧ r.capability? stack.item = some holder.capability ∧
        holder.stack = stack := by
  obtain ⟨held, capability⟩ := holder
  unfold findHolder
  cases empty : stack.isEmpty with
  | true => simp
  | false => cases r.capability? stack.item <;> simp [eq_comm, and_comm]

/-- What a stack is worth: the media that its holder holds, nothing where it has none. -/
def worth (r : MediaRegistry) (stack : ItemStack) : Nat :=
  match r.findHolder stack with
  | none => 0
  | some holder => holder.media.toNat

/-- The items of a stack, if they are dust, are together worth no more than fits a word. -/
def Fits (r : MediaRegistry) (stack : ItemStack) : Prop :=
  ∀ perItem, r.capability? stack.item = some (.dust perItem) →
    stack.count.toNat * perItem.toNat < UInt64.size

instance (r : MediaRegistry) (stack : ItemStack) : Decidable (r.Fits stack) :=
  match known : r.capability? stack.item with
  | some (.dust perItem) =>
      decidable_of_iff (stack.count.toNat * perItem.toNat < UInt64.size)
        ⟨fun fits other dust => by rw [known] at dust; cases dust; exact fits,
          fun fits => fits perItem known⟩
  | some (.battery _ _) => .isTrue fun _ dust => by rw [known] at dust; cases dust
  | none => .isTrue fun _ dust => by rw [known] at dust; cases dust

theorem Fits.spent {r : MediaRegistry} {stack rest : ItemStack} (fits : r.Fits stack)
    (spent : stack.Spent rest) : r.Fits rest := by
  intro perItem dust
  rw [spent.item] at dust
  exact Nat.lt_of_le_of_lt
    (Nat.mul_le_mul_right _ (UInt32.le_iff_toNat_le.mp spent.count)) (fits perItem dust)

theorem Fits.holder {r : MediaRegistry} {stack : ItemStack} {holder : MediaHolder}
    (fits : r.Fits stack) (found : r.findHolder stack = some holder) : holder.Fits := by
  obtain ⟨-, capability, rfl⟩ := findHolder_eq_some.mp found
  intro perItem dust
  exact fits perItem (capability.trans (congrArg some dust))

theorem worth_of_findHolder {r : MediaRegistry} {stack : ItemStack} {holder : MediaHolder}
    (found : r.findHolder stack = some holder) : r.worth stack = holder.media.toNat := by
  simp only [worth, found]

@[simp] theorem worth_of_isEmpty {r : MediaRegistry} {stack : ItemStack} (empty : stack.isEmpty) :
    r.worth stack = 0 := by
  simp only [worth, findHolder, empty, if_true]

theorem worth_le_media {r : MediaRegistry} {holder : MediaHolder}
    (capability : r.capability? holder.stack.item = some holder.capability) :
    r.worth holder.stack ≤ holder.media.toNat := by
  cases empty : holder.stack.isEmpty with
  | true =>
      rw [worth_of_isEmpty empty]
      exact Nat.zero_le _
  | false =>
      have found := findHolder_eq_some.mpr ⟨empty, capability, rfl⟩
      exact Nat.le_of_eq (worth_of_findHolder found)

theorem worth_withdraw_le {r : MediaRegistry} {stack : ItemStack} {holder : MediaHolder}
    (fits : r.Fits stack) (found : r.findHolder stack = some holder) (amount : MediaAmount) :
    r.worth (holder.withdraw amount false).2.stack + (holder.withdraw amount false).1.toNat ≤
      r.worth stack := by
  obtain ⟨-, capability, same⟩ := findHolder_eq_some.mp found
  have taken := MediaHolder.withdraw_media_le (fits.holder found) amount
  have spent := MediaHolder.withdraw_spent holder amount false
  have kept := MediaHolder.withdraw_capability holder amount false
  have left : r.worth (holder.withdraw amount false).2.stack ≤
      (holder.withdraw amount false).2.media.toNat := by
    apply worth_le_media
    rw [spent.item, same, kept, capability]
  rw [worth_of_findHolder found]
  omega

theorem extract_spent (r : MediaRegistry) (stack : ItemStack) (amount : MediaAmount)
    (simulate : Bool) : stack.Spent (r.extract stack amount simulate).2 := by
  unfold extract
  split
  · exact .refl stack
  · next holder found =>
      obtain ⟨-, -, rfl⟩ := findHolder_eq_some.mp found
      split
      · exact holder.withdraw_spent amount simulate
      · exact .refl _

/-- Nothing is drawn from a stack that it does not lose in worth. -/
theorem worth_extract_le {r : MediaRegistry} {stack : ItemStack} (fits : r.Fits stack)
    (amount : MediaAmount) :
    r.worth (r.extract stack amount false).2 + (r.extract stack amount false).1.toNat ≤
      r.worth stack := by
  unfold extract
  split
  · exact Nat.le_refl _
  · next holder found =>
      split
      · exact worth_withdraw_le fits found amount
      · exact Nat.le_refl _

theorem findHolder_insert {r : MediaRegistry} {stack : ItemStack} {holder : MediaHolder}
    (found : r.findHolder stack = some holder) (amount : MediaAmount) :
    r.findHolder (holder.insert amount false).2.stack = some (holder.insert amount false).2 := by
  obtain ⟨filled, -, -⟩ := MediaHolder.insert_eq holder amount
  obtain ⟨present, capability, rfl⟩ := findHolder_eq_some.mp found
  rw [filled]
  exact findHolder_eq_some.mpr ⟨present, capability, rfl⟩

theorem worth_insert {r : MediaRegistry} {stack : ItemStack} {holder : MediaHolder}
    (found : r.findHolder stack = some holder) (amount : MediaAmount) :
    r.worth (holder.insert amount false).2.stack =
      r.worth stack + (holder.insert amount false).1.toNat := by
  rw [worth_of_findHolder (findHolder_insert found amount), worth_of_findHolder found,
    MediaHolder.media_insert]

end MediaRegistry

end Spellcasting

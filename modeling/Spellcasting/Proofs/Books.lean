import Spellcasting.Proofs.Transfers

/-! # The books of a holder

Transfers follow one another on one stack, through whatever holder it has at the time, as long as it
has one. Each is entered in the books with its answer, and the books tell what has become of the
stack: a battery holds what it held, with what was put in and without what was taken out; dust has
lost whole items, as many as cover each withdrawal. Every step keeps such books, so every run does.
-/

namespace Spellcasting

/-- The ways in which media is moved. -/
inductive TransferKind where
  | insert
  | withdraw
  /-- A withdrawal by way of the registry. -/
  | extract
  deriving DecidableEq

/-- A request to move media into a stack or out of it. -/
structure Transfer where
  kind : TransferKind
  amount : MediaAmount
  simulate : Bool
  deriving DecidableEq

/-- A transfer and the amount that it was answered. -/
structure BookEntry where
  transfer : Transfer
  answer : Media

namespace BookEntry

/-- What the entry really put in. -/
def inserted (e : BookEntry) : Nat :=
  match e.transfer.kind, e.transfer.simulate with
  | .insert, false => e.answer.toNat
  | _, _ => 0

/-- What the entry really took out. -/
def withdrawn (e : BookEntry) : Nat :=
  match e.transfer.kind, e.transfer.simulate with
  | .withdraw, false | .extract, false => e.answer.toNat
  | _, _ => 0

end BookEntry

/-- What was really put in over all entries. -/
def totalInserted (books : List BookEntry) : Nat := (books.map BookEntry.inserted).sum

/-- What was really taken out over all entries. -/
def totalWithdrawn (books : List BookEntry) : Nat := (books.map BookEntry.withdrawn).sum

/-- How many items of some worth it took to cover each withdrawal. -/
def totalUsed (perItem : Media) (books : List BookEntry) : Nat :=
  (books.map fun e => e.withdrawn ⌈/⌉ perItem.toNat).sum

namespace MediaRegistry

/-- The answer to a transfer and the stack afterwards, `none` where the stack has no holder. -/
def perform (r : MediaRegistry) (stack : ItemStack) (t : Transfer) : Option (Media × ItemStack) :=
  (r.findHolder stack).map fun holder =>
    match t.kind with
    | .insert =>
      let (accepted, after) := holder.insert t.amount t.simulate
      (accepted, after.stack)
    | .withdraw =>
      let (taken, after) := holder.withdraw t.amount t.simulate
      (taken, after.stack)
    | .extract => r.extract stack t.amount t.simulate

/-- The books of a run of transfers, which ends early where the stack has no holder any more, and
the stack at its end. -/
def performAll (r : MediaRegistry) (stack : ItemStack) :
    List Transfer → List BookEntry × ItemStack
  | [] => ([], stack)
  | t :: later =>
    match r.perform stack t with
    | none => ([], stack)
    | some (answer, next) =>
      let (books, now) := r.performAll next later
      (⟨t, answer⟩ :: books, now)

end MediaRegistry

theorem MediaHolder.insert_simulated (h : MediaHolder) (amount : MediaAmount) :
    h.insert amount true = ((h.insert amount false).1, h) := by
  obtain ⟨stack, capability⟩ := h
  cases capability <;> rfl

theorem MediaHolder.toNat_freeCapacity_insert (h : MediaHolder) (amount : MediaAmount) :
    (h.insert amount false).2.freeCapacity.toNat + (h.insert amount false).1.toNat =
      h.freeCapacity.toNat := by
  obtain ⟨filled, -, room⟩ := h.insert_eq amount
  have sum := h.toNat_media_insert amount
  cases kind : h.capability with
  | dust perItem => simp [insert, freeCapacity, kind]
  | battery capacity rechargeable =>
      have still : (h.insert amount false).2.capability = .battery capacity rechargeable := by
        rw [filled]
        exact kind
      have limit : (h.insert amount false).2.maxMedia = h.maxMedia := by
        rw [filled]
        simp only [maxMedia, kind]
      have media : (h.insert amount false).2.stack.media =
          h.stack.media + (h.insert amount false).1 := by rw [filled]
      rw [toNat_freeCapacity_battery still, toNat_freeCapacity_battery kind, limit, media, sum]
      omega

theorem MediaHolder.insert_unlimited_fst (h : MediaHolder) :
    (h.insert .unlimited false).1 = h.freeCapacity := by
  obtain ⟨stack, capability⟩ := h
  cases capability <;> rfl

theorem MediaHolder.withdraw_simulated (h : MediaHolder) (amount : MediaAmount) :
    h.withdraw amount true = ((h.withdraw amount false).1, h) := by
  refine Prod.ext ?_ ?_
  · rw [h.withdraw_fst, h.withdraw_fst]
  · obtain ⟨stack, capability⟩ := h
    cases capability with
    | battery capacity rechargeable => rfl
    | dust perItem =>
        simp only [withdraw, Bool.true_or, if_true]
        split <;> rfl

namespace MediaRegistry

variable {r : MediaRegistry} {stack next : ItemStack} {answer : Media}

theorem perform_simulated (r : MediaRegistry) (stack : ItemStack) (t : Transfer) :
    r.perform stack { t with simulate := true } =
      (r.perform stack { t with simulate := false }).map fun answered => (answered.1, stack) := by
  cases found : r.findHolder stack with
  | none => simp only [perform, found, Option.map_none]
  | some holder =>
      obtain ⟨-, -, same⟩ := findHolder_eq_some.mp found
      simp only [perform, found, Option.map_some]
      cases t.kind with
      | insert => simp only [holder.insert_simulated, same]
      | withdraw => simp only [holder.withdraw_simulated, same]
      | extract => simp only [extract_of_findHolder found, holder.withdraw_simulated, same]

/-- What a transfer can come to. -/
inductive Performed (r : MediaRegistry) (stack : ItemStack) :
    Transfer → Media → ItemStack → Prop where
  | inserted {amount holder} : r.findHolder stack = some holder →
      Performed r stack ⟨.insert, amount, false⟩ (holder.insert amount false).1
        (holder.insert amount false).2.stack
  | withdrawn {kind amount} : kind ≠ .insert →
      Performed r stack ⟨kind, amount, false⟩ (r.extract stack amount false).1
        (r.extract stack amount false).2
  | simulated {kind amount answer next} : Performed r stack ⟨kind, amount, false⟩ answer next →
      Performed r stack ⟨kind, amount, true⟩ answer stack

theorem performed_of_real {kind : TransferKind} {amount : MediaAmount}
    (performed : r.perform stack ⟨kind, amount, false⟩ = some (answer, next)) :
    Performed r stack ⟨kind, amount, false⟩ answer next := by
  obtain ⟨holder, found, answered⟩ := Option.map_eq_some_iff.mp performed
  have drawn := extract_of_findHolder found amount false
  cases kind with
  | insert =>
      cases answered
      exact .inserted found
  | withdraw =>
      obtain ⟨rfl, rfl⟩ := Prod.mk.inj (drawn.trans answered)
      exact .withdrawn TransferKind.noConfusion
  | extract =>
      change r.extract stack amount false = (answer, next) at answered
      obtain ⟨rfl, rfl⟩ := Prod.mk.inj answered
      exact .withdrawn TransferKind.noConfusion

theorem performed_of_perform {t : Transfer}
    (performed : r.perform stack t = some (answer, next)) : Performed r stack t answer next := by
  obtain ⟨kind, amount, simulate⟩ := t
  cases simulate with
  | false => exact performed_of_real performed
  | true =>
      rw [r.perform_simulated stack ⟨kind, amount, true⟩] at performed
      obtain ⟨real, taken, answered⟩ := Option.map_eq_some_iff.mp performed
      cases answered
      exact .simulated (performed_of_real taken)

theorem Performed.fits {t : Transfer} (performed : Performed r stack t answer next)
    (fits : r.Fits stack) : r.Fits next := by
  cases performed with
  | @inserted amount holder found =>
      obtain ⟨-, -, rfl⟩ := findHolder_eq_some.mp found
      rw [(holder.insert_eq amount).1]
      exact fits
  | @withdrawn kind amount => exact fits.spent (r.extract_spent stack amount false)
  | simulated => exact fits

/-- The books of a battery: it holds what it held, with what was put in and without what was taken
out, and what it holds above its capacity it held from the start. -/
structure KeepsBattery (stack : ItemStack) (capacity : Media) (inserted withdrawn : Nat)
    (now : ItemStack) : Prop where
  same : now = { stack with media := now.media }
  balance : now.media.toNat + withdrawn = stack.media.toNat + inserted
  bounded : now.media.toNat ≤ max capacity.toNat stack.media.toNat

/-- The books of a stack of dust: some items are used up, and the rest is as it was. -/
structure KeepsDust (stack : ItemStack) (used : Nat) (now : ItemStack) : Prop where
  same : now = { stack with count := now.count }
  balance : now.count.toNat + used = stack.count.toNat

/-- What a real withdrawal from a stack of dust comes to: as many items are gone as cover the
answer, and the stack loses the answer in worth, with less than one item more that is wasted. -/
structure GivesItems (r : MediaRegistry) (stack : ItemStack) (perItem answer : Media)
    (next : ItemStack) : Prop where
  items : KeepsDust stack (answer.toNat ⌈/⌉ perItem.toNat) next
  lost : r.worth next + answer.toNat ≤ r.worth stack
  wasted : 0 < answer → r.worth stack < r.worth next + answer.toNat + perItem.toNat

section

variable {capacity perItem : Media} {rechargeable : Bool} {t : Transfer}

theorem fits_of_battery
    (known : r.capability? stack.item = some (.battery capacity rechargeable)) : r.Fits stack := by
  intro perItem dust
  rw [known] at dust
  cases dust

theorem Performed.battery (performed : Performed r stack t answer next)
    (known : r.capability? stack.item = some (.battery capacity rechargeable)) :
    KeepsBattery stack (stack.maxMedia.getD capacity) (BookEntry.inserted ⟨t, answer⟩)
      (BookEntry.withdrawn ⟨t, answer⟩) next := by
  cases performed with
  | @inserted amount holder found =>
      obtain ⟨-, same, rfl⟩ := findHolder_eq_some.mp found
      have capability := Option.some.inj (same.symm.trans known)
      obtain ⟨after, -, room⟩ := holder.insert_eq amount
      have sum := holder.toNat_media_insert amount
      simp only [MediaHolder.maxMedia, capability] at room
      rw [after]
      refine ⟨rfl, sum, ?_⟩
      rw [sum]
      omega
  | @withdrawn kind amount other =>
      obtain ⟨same, lost⟩ := (extract_leaves (fits_of_battery known) amount).battery capacity
        rechargeable known
      refine ⟨same, ?_, by omega⟩
      cases kind with
      | insert => exact absurd rfl other
      | withdraw => exact lost
      | extract => exact lost
  | @simulated kind =>
      refine ⟨rfl, ?_, Nat.le_max_right _ _⟩
      cases kind <;> rfl

theorem Performed.dust (performed : Performed r stack t answer next) (fits : r.Fits stack)
    (known : r.capability? stack.item = some (.dust perItem)) :
    KeepsDust stack (BookEntry.withdrawn ⟨t, answer⟩ ⌈/⌉ perItem.toNat) next ∧
      (t.kind = .insert → answer = 0) := by
  -- a simulated transfer is answered as the real one under it, so cases would not do
  induction performed with
  | @inserted amount holder found =>
      obtain ⟨-, same, rfl⟩ := findHolder_eq_some.mp found
      obtain ⟨stack, capability⟩ := holder
      obtain rfl := Option.some.inj (same.symm.trans known)
      exact ⟨⟨rfl, congrArg _ (zero_ceilDiv _)⟩, fun _ => rfl⟩
  | @withdrawn kind amount other =>
      obtain ⟨same, lost⟩ := (extract_leaves fits amount).dust perItem known
      refine ⟨⟨same, ?_⟩, fun insert => absurd insert other⟩
      cases kind with
      | insert => exact absurd rfl other
      | withdraw => exact lost
      | extract => exact lost
  | @simulated kind amount answer next real alike =>
      refine ⟨⟨rfl, ?_⟩, alike.2⟩
      cases kind <;> exact congrArg _ (zero_ceilDiv _)

theorem KeepsBattery.refl (stack : ItemStack) (capacity : Media) :
    KeepsBattery stack capacity 0 0 stack :=
  ⟨rfl, rfl, Nat.le_max_right _ _⟩

theorem KeepsBattery.trans {now : ItemStack} {inserted inserted' withdrawn withdrawn' : Nat}
    (first : KeepsBattery stack capacity inserted withdrawn next)
    (later : KeepsBattery next capacity inserted' withdrawn' now) :
    KeepsBattery stack capacity (inserted + inserted') (withdrawn + withdrawn') now := by
  obtain ⟨same, balance, bounded⟩ := first
  obtain ⟨same', balance', bounded'⟩ := later
  refine ⟨?_, by omega, by omega⟩
  rw [same', same]

theorem KeepsDust.refl (stack : ItemStack) : KeepsDust stack 0 stack := ⟨rfl, rfl⟩

theorem KeepsDust.item {used : Nat} (kept : KeepsDust stack used next) :
    next.item = stack.item := by
  rw [kept.same]

theorem KeepsDust.trans {now : ItemStack} {used used' : Nat} (first : KeepsDust stack used next)
    (later : KeepsDust next used' now) : KeepsDust stack (used + used') now := by
  obtain ⟨same, balance⟩ := first
  obtain ⟨same', balance'⟩ := later
  refine ⟨?_, by omega⟩
  rw [same', same]

theorem performAll_cons (performed : r.perform stack t = some (answer, next))
    (later : List Transfer) :
    r.performAll stack (t :: later) =
      (⟨t, answer⟩ :: (r.performAll next later).1, (r.performAll next later).2) := by
  simp only [performAll, performed]

theorem performAll_stopped (stopped : r.perform stack t = none) (later : List Transfer) :
    r.performAll stack (t :: later) = ([], stack) := by
  simp only [performAll, stopped]

theorem isEmpty_of_perform_none {capability : MediaCapability}
    (known : r.capability? stack.item = some capability) (stopped : r.perform stack t = none) :
    stack.isEmpty = true := by
  have absent := Option.map_eq_none_iff.mp stopped
  cases empty : stack.isEmpty with
  | true => rfl
  | false =>
      have found : r.findHolder stack = some ⟨stack, capability⟩ :=
        findHolder_eq_some.mpr ⟨empty, known, rfl⟩
      rw [found] at absent
      cases absent

/-- A battery answers every transfer of a run, and the books are kept. -/
theorem performAll_battery (present : stack.isEmpty = false)
    (known : r.capability? stack.item = some (.battery capacity rechargeable))
    (transfers : List Transfer) :
    let books := (r.performAll stack transfers).1
    books.map BookEntry.transfer = transfers ∧
      KeepsBattery stack (stack.maxMedia.getD capacity) (totalInserted books)
        (totalWithdrawn books) (r.performAll stack transfers).2 := by
  induction transfers generalizing stack with
  | nil => exact ⟨rfl, .refl stack _⟩
  | cons t later ih =>
      cases performed : r.perform stack t with
      | none =>
          -- neither count nor item of a battery changes, so it never stops being a holder
          rw [isEmpty_of_perform_none known performed] at present
          cases present
      | some answered =>
          obtain ⟨answer, next⟩ := answered
          have step := (performed_of_perform performed).battery known
          obtain ⟨item, count, maxMedia⟩ : next.item = stack.item ∧ next.count = stack.count ∧
              next.maxMedia = stack.maxMedia := by rw [step.same]; exact ⟨rfl, rfl, rfl⟩
          have still : next.isEmpty = false := by
            simpa only [ItemStack.isEmpty, item, count] using present
          obtain ⟨entered, kept⟩ := ih still (by rw [item]; exact known)
          rw [maxMedia] at kept
          rw [performAll_cons performed]
          exact ⟨congrArg (t :: ·) entered, step.trans kept⟩

/-- Dust answers the transfers of a run as long as there is some of it, and the books are kept. -/
theorem performAll_dust (fits : r.Fits stack)
    (known : r.capability? stack.item = some (.dust perItem)) (transfers : List Transfer) :
    let books := (r.performAll stack transfers).1
    let now := (r.performAll stack transfers).2
    (books.map BookEntry.transfer = transfers ∨ now.isEmpty = true) ∧
      KeepsDust stack (totalUsed perItem books) now ∧
      ∀ e ∈ books, e.transfer.kind = .insert → e.answer = 0 := by
  induction transfers generalizing stack with
  | nil => exact ⟨.inl rfl, .refl stack, fun _ member => absurd member List.not_mem_nil⟩
  | cons t later ih =>
      cases performed : r.perform stack t with
      | none =>
          rw [performAll_stopped performed]
          exact ⟨.inr (isEmpty_of_perform_none known performed), .refl stack,
            fun _ member => absurd member List.not_mem_nil⟩
      | some answered =>
          obtain ⟨answer, next⟩ := answered
          have taken := performed_of_perform performed
          obtain ⟨step, refused⟩ := taken.dust fits known
          obtain ⟨entered, kept, others⟩ := ih (taken.fits fits) (by rw [step.item]; exact known)
          rw [performAll_cons performed]
          refine ⟨entered.imp_left (congrArg (t :: ·)), step.trans kept, fun e member => ?_⟩
          rcases List.mem_cons.mp member with rfl | earlier
          · exact refused
          · exact others e earlier

theorem performAll_fits (fits : r.Fits stack) (transfers : List Transfer) :
    r.Fits (r.performAll stack transfers).2 := by
  induction transfers generalizing stack with
  | nil => exact fits
  | cons t later ih =>
      cases performed : r.perform stack t with
      | none =>
          rw [performAll_stopped performed]
          exact fits
      | some answered =>
          rw [performAll_cons performed]
          exact ih ((performed_of_perform performed).fits fits)

theorem worth_dust (fits : r.Fits stack) (known : r.capability? stack.item = some (.dust perItem))
    (solid : stack.item ≠ .air) : r.worth stack = stack.count.toNat * perItem.toNat := by
  cases empty : stack.isEmpty with
  | true =>
      -- its item is not air, so the stack is empty for want of items
      have gone : stack.count = 0 := by simpa [ItemStack.isEmpty, solid] using empty
      rw [worth_of_isEmpty empty, gone, UInt32.toNat_zero, Nat.zero_mul]
  | false =>
      have found : r.findHolder stack = some ⟨stack, .dust perItem⟩ :=
        findHolder_eq_some.mpr ⟨empty, known, rfl⟩
      rw [worth_of_findHolder found, MediaHolder.toNat_media_dust (fits perItem known)]

theorem worth_lt_of_extract (fits : r.Fits stack)
    (known : r.capability? stack.item = some (.dust perItem)) (solid : stack.item ≠ .air)
    {amount : MediaAmount} (drawn : 0 < (r.extract stack amount false).1) :
    r.worth stack < r.worth (r.extract stack amount false).2 +
      (r.extract stack amount false).1.toNat + perItem.toNat := by
  obtain ⟨same, gone⟩ := (extract_leaves fits amount).dust perItem known
  have rest : r.worth (r.extract stack amount false).2 =
      (r.extract stack amount false).2.count.toNat * perItem.toNat := by
    apply worth_dust (fits.spent (r.extract_spent stack amount false))
    · rw [same]; exact known
    · rw [same]; exact solid
  -- the items that cover an amount are worth less than one item more than it
  have covered := Nat.div_mul_le_self
    ((r.extract stack amount false).1.toNat + perItem.toNat - 1) perItem.toNat
  have positive := UInt64.lt_iff_toNat_lt.mp drawn
  rw [UInt64.toNat_zero] at positive
  rw [rest, worth_dust fits known solid, ← gone, Nat.add_mul, Nat.ceilDiv_eq_add_pred_div]
  omega

theorem givesItems_of_perform {kind : TransferKind} {amount : MediaAmount} (fits : r.Fits stack)
    (known : r.capability? stack.item = some (.dust perItem)) (other : kind ≠ .insert)
    (performed : r.perform stack ⟨kind, amount, false⟩ = some (answer, next)) :
    r.GivesItems stack perItem answer next := by
  have solid : stack.item ≠ .air := by
    intro air
    have empty : stack.isEmpty = true := by simp [ItemStack.isEmpty, air]
    simp only [perform, findHolder, empty, if_true, Option.map_none] at performed
    cases performed
  cases performed_of_perform performed with
  | inserted => exact absurd rfl other
  | withdrawn =>
      obtain ⟨same, gone⟩ := (extract_leaves fits amount).dust perItem known
      exact ⟨⟨same, gone⟩, worth_extract_le fits amount, worth_lt_of_extract fits known solid⟩

theorem freeCapacity_of_perform {amount : MediaAmount}
    (performed : r.perform stack ⟨.insert, amount, false⟩ = some (answer, next)) :
    ∃ before after, r.findHolder stack = some before ∧ r.findHolder next = some after ∧
      after.freeCapacity.toNat + answer.toNat = before.freeCapacity.toNat ∧
      (amount = .unlimited → after.freeCapacity = 0) := by
  cases performed_of_perform performed with
  | withdrawn other => exact absurd rfl other
  | @inserted _ holder found =>
      have room := holder.toNat_freeCapacity_insert amount
      refine ⟨holder, _, found, findHolder_insert found amount, room, ?_⟩
      rintro rfl
      rw [holder.insert_unlimited_fst] at room
      apply UInt64.toNat_inj.mp
      rw [UInt64.toNat_zero]
      omega

theorem withdrawable_of_perform {kind : TransferKind} (fits : r.Fits stack)
    (other : kind ≠ .insert)
    (performed : r.perform stack ⟨kind, .unlimited, false⟩ = some (answer, next)) :
    r.withdrawable next = 0 := by
  cases performed_of_perform performed with
  | inserted => exact absurd rfl other
  | withdrawn => exact extract_all fits (r.extract_fst stack .unlimited)

end

end MediaRegistry

/-- Holders keep exact books, whatever transfers follow one another on a stack and wherever they
have got to. Simulated, the next transfer changes nothing and is answered as the real one would be.
A battery has answered them all; it holds what it held, with what was put in and without what was
taken out, never more than its capacity or what it held at first, and is otherwise unchanged. Dust
has answered them until it was used up; it accepts nothing, and each withdrawal uses up just the
items that cover it. What a holder accepts it has no more room for, and where all is asked for, no
room or nothing to withdraw is left. -/
theorem holders_keep_exact_books {r : MediaRegistry} {stack : ItemStack}
    (present : stack.isEmpty = false) (fits : r.Fits stack) (transfers : List Transfer) :
    let books := (r.performAll stack transfers).1
    let now := (r.performAll stack transfers).2
    (∀ t : Transfer, r.perform now { t with simulate := true } =
      (r.perform now { t with simulate := false }).map fun answered => (answered.1, now)) ∧
    (∀ capacity rechargeable,
      r.capability? stack.item = some (.battery capacity rechargeable) →
      books.map BookEntry.transfer = transfers ∧
      MediaRegistry.KeepsBattery stack (stack.maxMedia.getD capacity) (totalInserted books)
        (totalWithdrawn books) now) ∧
    (∀ perItem, r.capability? stack.item = some (.dust perItem) →
      (books.map BookEntry.transfer = transfers ∨ now.isEmpty = true) ∧
      MediaRegistry.KeepsDust stack (totalUsed perItem books) now ∧
      (∀ e ∈ books, e.transfer.kind = .insert → e.answer = 0) ∧
      ∀ kind amount answer next, kind ≠ .insert →
        r.perform now ⟨kind, amount, false⟩ = some (answer, next) →
        r.GivesItems now perItem answer next) ∧
    (∀ amount answer next, r.perform now ⟨.insert, amount, false⟩ = some (answer, next) →
      ∃ before after, r.findHolder now = some before ∧ r.findHolder next = some after ∧
        after.freeCapacity.toNat + answer.toNat = before.freeCapacity.toNat ∧
        (amount = .unlimited → after.freeCapacity = 0)) ∧
    (∀ kind answer next, kind ≠ .insert →
      r.perform now ⟨kind, .unlimited, false⟩ = some (answer, next) →
      r.withdrawable next = 0) := by
  intro books now
  have still : r.Fits now := MediaRegistry.performAll_fits fits transfers
  refine ⟨r.perform_simulated now, fun capacity rechargeable known =>
    MediaRegistry.performAll_battery present known transfers, fun perItem known => ?_,
    fun amount answer next performed => MediaRegistry.freeCapacity_of_perform performed,
    fun kind answer next other performed =>
      MediaRegistry.withdrawable_of_perform still other performed⟩
  obtain ⟨entered, kept, refused⟩ := MediaRegistry.performAll_dust fits known transfers
  refine ⟨entered, kept, refused, fun kind amount answer next other performed => ?_⟩
  exact MediaRegistry.givesItems_of_perform still (by rw [kept.item]; exact known) other performed

/-- An overfull battery takes nothing in until enough was drawn from it, and three pinches of dust
give the worth of one and a half, and then what is left. -/
theorem overfull_battery_and_dust_keep_books :
    let r := MediaRegistry.stock
    let battery := ((ItemStack.new .battery 1).withMaxMedia 10).withMedia 12
    let filling : List Transfer := [⟨.insert, .unlimited, false⟩, ⟨.withdraw, .units 5, false⟩,
      ⟨.insert, .units 100, true⟩, ⟨.insert, .units 100, false⟩, ⟨.extract, .units 1, false⟩]
    let dust := ItemStack.new .amethystDust 3
    let drawing : List Transfer := [⟨.insert, .units 5, false⟩, ⟨.withdraw, .units 15000, false⟩,
      ⟨.extract, .unlimited, true⟩]
    battery.isEmpty = false ∧ r.Fits battery ∧ dust.isEmpty = false ∧ r.Fits dust ∧
    (r.performAll battery filling).2.media = 9 ∧ (r.performAll dust drawing).2.count = 1 ∧
    ∀ kind amount answer next, kind ≠ .insert →
      r.perform (r.performAll dust drawing).2 ⟨kind, amount, false⟩ = some (answer, next) →
      r.GivesItems (r.performAll dust drawing).2 Media.dustUnit answer next := by
  intro r battery filling dust drawing
  have full : battery.isEmpty = false := rfl
  have present : dust.isEmpty = false := rfl
  have fitsBattery : r.Fits battery := by decide
  have fitsDust : r.Fits dust := by decide
  obtain ⟨-, charged, -⟩ := holders_keep_exact_books full fitsBattery filling
  obtain ⟨-, -, drawn, -⟩ := holders_keep_exact_books present fitsDust drawing
  obtain ⟨-, books⟩ := charged _ _ rfl
  obtain ⟨-, kept, -, gives⟩ := drawn Media.dustUnit rfl
  refine ⟨full, fitsBattery, present, fitsDust, ?_, ?_, gives⟩
  · have balance := books.balance
    have inserted : totalInserted (r.performAll battery filling).1 = 3 := by decide
    have withdrawn : totalWithdrawn (r.performAll battery filling).1 = 6 := by decide
    have initial : battery.media.toNat = 12 := rfl
    apply UInt64.toNat_inj.mp
    change _ = 9
    omega
  · have balance := kept.balance
    have used : totalUsed Media.dustUnit (r.performAll dust drawing).1 = 2 := by decide
    have initial : dust.count.toNat = 3 := rfl
    apply UInt32.toNat_inj.mp
    change _ = 1
    omega

end Spellcasting

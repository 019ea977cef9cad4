import Spellcasting.Proofs.Confinement
import Spellcasting.Proofs.Transfers

/-! # One bottle, one battery

All crafting spells of a batch were answered for the same single bottle. The first of them that
changes anything turns it into a battery; no spell puts a bottle in a hand, so those that come later
find none. Those that come before leave the world just as it is: a target that still lives has kept
some of its stack, whatever recharges have drawn on it, so a crafting spell that gets nothing out of
it does not use it up either.
-/

namespace Spellcasting

theorem MediaHolder.is_insert (h : MediaHolder) (amount : MediaAmount) (item : ItemId) :
    (h.insert amount false).2.stack.is item = h.stack.is item := by
  obtain ⟨filled, -, -⟩ := h.insert_eq amount
  rw [filled]
  rfl

theorem MediaRegistry.present_of_isMediaItem {r : MediaRegistry} {stack : ItemStack}
    (media : r.isMediaItem stack = true) : stack.isEmpty = false := by
  unfold isMediaItem at media
  split at media
  · cases media
  · next holder found => exact (findHolder_eq_some.mp found).1

namespace CraftBattery

theorem drain_nothing {r : MediaRegistry} {stack : ItemStack}
    (nothing : (drain r stack false).1 = 0) : (drain r stack false).2 = stack := by
  unfold drain at nothing ⊢
  split
  · rfl
  · next holder found =>
      obtain ⟨-, -, rfl⟩ := MediaRegistry.findHolder_eq_some.mp found
      split
      · next drawn =>
          simp only [found, drawn, if_true] at nothing
          exact MediaHolder.withdraw_nothing nothing
      · rfl

theorem commit_of_no_bottle {spell : CraftBattery} {w : World}
    (gone : (w.held spell.hand).is .glassBottle = false) : spell.commit w = w := by
  simp only [commit, CastingEnv.heldItem, gone, Bool.false_and, Bool.false_eq_true, if_false]

/-- A battery is made out of the bottle, or nothing is done at all, unless the target lives on an
empty stack. -/
theorem commit_eq_or_no_bottle {spell : CraftBattery} {w : World}
    (present : ∀ source, w.entitySlot? spell.target = some source → source.isEmpty = false) :
    spell.commit w = w ∨ ((spell.commit w).held spell.hand).is .glassBottle = false := by
  rcases spell.commit_cases w with idle | ⟨source, bottle, single, slot⟩
  · exact .inl idle
  · rw [commit_eq bottle single slot]
    by_cases made : (drain w.registry source false).1 > 0
    · refine .inr ?_
      rw [World.held_exchange, if_pos rfl, if_pos made]
      rfl
    · have nothing : (drain w.registry source false).1 = 0 :=
        UInt64.le_antisymm (UInt64.not_lt.mp made) (UInt64.le_iff_toNat_le.mpr (Nat.zero_le _))
      rw [if_neg made, drain_nothing nothing]
      exact .inl (World.exchange_self spell.hand slot (present source slot))

end CraftBattery

namespace World

/-- Whoever had something on a stack and lives has something on it still. -/
def KeepsStacks (w now : World) : Prop :=
  ∀ id old stack, w.entitySlot? id = some old → old.isEmpty = false →
    now.entitySlot? id = some stack → stack.isEmpty = false

variable {w now : World} {args : List Iota} {spell : Spell World}

theorem KeepsStacks.refl (w : World) : w.KeepsStacks w := by
  intro id old stack had present has
  cases had.symm.trans has
  exact present

theorem KeepsStacks.exchange (h : w.KeepsStacks now) {hand : Hand} {stack source rest : ItemStack}
    {target : EntityId} (slot : now.entitySlot? target = some source) :
    w.KeepsStacks (now.exchange hand stack target rest) := by
  intro id old left had filled has
  by_cases drained : id = target
  · subst drained
    rw [entitySlot?_exchange_target slot] at has
    -- an emptied target is no longer alive
    split at has
    · cases has
    · next present =>
        cases has
        simpa using present
  · rw [entitySlot?_exchange_other drained] at has
    exact h id old left had filled has

theorem KeepsStacks.commit (h : w.KeepsStacks now) (captured : spell.CapturedIn w args) :
    w.KeepsStacks (spell.commit now) := by
  cases captured with
  | @recharge spell =>
      change w.KeepsStacks (Recharge.commit spell now)
      rcases spell.commit_cases now with idle | ⟨source, holder, slot, same, found⟩
      · exact idle.symm ▸ h
      · rw [Recharge.commit_eq slot same found]
        exact h.exchange slot
  | @craftBattery spell =>
      change w.KeepsStacks (CraftBattery.commit spell now)
      rcases spell.commit_cases now with idle | ⟨source, bottle, single, slot⟩
      · exact idle.symm ▸ h
      · rw [CraftBattery.commit_eq bottle single slot]
        exact h.exchange slot

theorem KeepsStacks.target (h : w.KeepsStacks now) {ref : EntityRef} {state : EntityState}
    (checked : Targeted w args ref state) :
    ∀ source, now.entitySlot? ref.id = some source → source.isEmpty = false := by
  intro source slot
  obtain ⟨alive, first, carried, media⟩ := checked.carries
  exact h ref.id first source (entitySlot?_eq_some.mpr ⟨state, checked.known, alive, carried⟩)
    (MediaRegistry.present_of_isMediaItem media) slot

theorem no_bottle_of_commit (captured : spell.CapturedIn w args) {hand : Hand}
    (gone : (now.held hand).is .glassBottle = false) :
    ((spell.commit now).held hand).is .glassBottle = false := by
  cases captured with
  | @recharge spell =>
      change ((Recharge.commit spell now).held hand).is .glassBottle = false
      rcases spell.commit_cases now with idle | ⟨source, holder, slot, same, found⟩
      · rw [idle]
        exact gone
      · rw [Recharge.commit_eq slot same found, held_exchange]
        split
        · next filled =>
            rw [MediaHolder.is_insert, (MediaRegistry.findHolder_eq_some.mp found).2.2, ← filled]
            exact gone
        · exact gone
  | @craftBattery spell =>
      change ((CraftBattery.commit spell now).held hand).is .glassBottle = false
      rcases spell.commit_cases now with idle | ⟨source, bottle, single, slot⟩
      · rw [idle]
        exact gone
      · have other : hand ≠ spell.hand := by
          rintro rfl
          rw [bottle] at gone
          cases gone
        rw [CraftBattery.commit_eq bottle single slot, held_exchange, if_neg other]
        exact gone

end World

namespace Spell

/-- Of the batteries in a list of spells, all but the one at some place come to nothing when the
list is committed. -/
def OnlyMaker (w : World) (spells : List (Spell World)) (place : Nat) : Prop :=
  ∀ before (spell : CraftBattery) later, spells = before ++ .craftBattery spell :: later →
    before.length ≠ place →
    let now := before.foldl (fun w spell => spell.commit w) w
    spell.commit now = now

variable {w now : World} {spells : List (Spell World)}

theorem OnlyMaker.cons {head : Spell World} {place : Nat}
    (idle : ∀ spell : CraftBattery, head = .craftBattery spell → spell.commit now = now)
    (rest : OnlyMaker (head.commit now) spells place) :
    OnlyMaker now (head :: spells) (place + 1) := by
  intro before spell later split other
  cases before with
  | nil =>
      cases split
      exact idle spell rfl
  | cons first before =>
      cases split
      exact rest before spell later rfl fun same => other (congrArg Nat.succ same)

theorem idle_of_no_bottle (captured : ∀ spell ∈ spells, ∃ args, spell.CapturedIn w args)
    (gone : (now.held (CastingEnv.heldItemFor w (·.is .glassBottle)).hand).is .glassBottle = false)
    {before later : List (Spell World)} {spell : CraftBattery}
    (split : spells = before ++ .craftBattery spell :: later) :
    spell.commit (before.foldl (fun w spell => spell.commit w) now) =
      before.foldl (fun w spell => spell.commit w) now := by
  subst split
  obtain ⟨args, answered⟩ := captured (.craftBattery spell) (by simp)
  have still := List.foldlRecOn
    (motive := fun next : World =>
      (next.held (CastingEnv.heldItemFor w (·.is .glassBottle)).hand).is .glassBottle = false)
    before _ gone fun next gone spell asked => by
      obtain ⟨args, answered⟩ := captured spell (List.mem_append_left _ asked)
      exact World.no_bottle_of_commit answered gone
  cases answered with
  | craftBattery evaluated =>
      obtain ⟨ref, state, -, -, -, hand, -⟩ := CraftBattery.evaluate_some evaluated
      rw [← hand] at still
      exact CraftBattery.commit_of_no_bottle still

theorem exists_onlyMaker (captured : ∀ spell ∈ spells, ∃ args, spell.CapturedIn w args)
    (kept : w.KeepsStacks now) : ∃ place, OnlyMaker now spells place := by
  induction spells generalizing now with
  | nil => exact ⟨0, fun before spell later split => by simp at split⟩
  | cons head rest ih =>
      obtain ⟨args, answered⟩ := captured head List.mem_cons_self
      have others : ∀ spell ∈ rest, ∃ args, spell.CapturedIn w args :=
        fun spell member => captured spell (List.mem_cons_of_mem _ member)
      obtain ⟨place, only⟩ := ih others (kept.commit answered)
      cases answered with
      | recharge => exact ⟨place + 1, only.cons fun spell same => by cases same⟩
      | @craftBattery spell spray evaluated =>
          obtain ⟨ref, state, checked, target, -, hand, -⟩ := CraftBattery.evaluate_some evaluated
          rcases CraftBattery.commit_eq_or_no_bottle (target ▸ kept.target checked) with idle | gone
          · exact ⟨place + 1, only.cons fun other same => by cases same; exact idle⟩
          · refine ⟨0, fun before other later split notFirst => ?_⟩
            cases before with
            | nil => exact absurd rfl notFirst
            | cons first before =>
                cases split
                rw [hand] at gone
                exact idle_of_no_bottle others gone rfl

end Spell

/-- A batch makes one battery at most. When spells that stock operators have answered in one world
are committed there in any order, all the crafting spells among them, but the one at some place,
leave the world exactly as they find it. -/
theorem one_battery_is_made_at_most {w : World} {spells : List (Spell World)}
    (captured : ∀ spell ∈ spells, ∃ args, spell.CapturedIn w args) :
    ∃ place, ∀ before (spell : CraftBattery) later,
      spells = before ++ .craftBattery spell :: later → before.length ≠ place →
      let now := before.foldl (fun w spell => spell.commit w) w
      spell.commit now = now :=
  Spell.exists_onlyMaker captured (.refl w)

/-- Two piles of dust, and a bottle that can itself be charged. -/
def World.chargedBottle : World :=
  let registry := MediaRegistry.stock.register .glassBottle (.battery 15000 true)
  let held := { World.initial with registry }.hold .off (.new .glassBottle 1)
  let one := (held.spawnItem (.ofNat 1) "Dust" .zero (.new .amethystDust 3)).1
  (one.spawnItem (.ofNat 2) "Dust" .zero (.new .amethystDust 3)).1

/-- The bottle is charged from one pile, then what is left of it is bottled, and the other pile is
not. -/
theorem charged_bottle_becomes_one_battery :
    let charge : Recharge := ⟨.ofNat 1, .off, .glassBottle⟩
    let first : CraftBattery := ⟨.ofNat 1, .off⟩
    let second : CraftBattery := ⟨.ofNat 2, .off⟩
    let spells : List (Spell World) :=
      [.recharge charge, .craftBattery first, .craftBattery second]
    let charged := charge.commit World.chargedBottle
    (∀ spell ∈ spells, ∃ args, spell.CapturedIn World.chargedBottle args) ∧
      first.commit charged ≠ charged ∧
      second.commit (first.commit charged) = first.commit charged := by
  intro charge first second spells charged
  have captured : ∀ spell ∈ spells, ∃ args, spell.CapturedIn World.chargedBottle args := by
    let near : List Iota := [.entity ⟨.ofNat 1, .item, "Dust"⟩]
    let far : List Iota := [.entity ⟨.ofNat 2, .item, "Dust"⟩]
    obtain ⟨_, charging⟩ : ∃ spray,
        Recharge.evaluate near World.chargedBottle = .ok (some (charge, spray)) :=
      exists_answer (by decide +kernel)
    obtain ⟨_, bottling⟩ : ∃ spray,
        CraftBattery.evaluate near World.chargedBottle = .ok (some (first, spray)) :=
      exists_answer (by decide +kernel)
    obtain ⟨_, other⟩ : ∃ spray,
        CraftBattery.evaluate far World.chargedBottle = .ok (some (second, spray)) :=
      exists_answer (by decide +kernel)
    intro spell member
    simp only [spells, List.mem_cons, List.not_mem_nil, or_false] at member
    rcases member with rfl | rfl | rfl
    · exact ⟨near, .recharge charging⟩
    · exact ⟨near, .craftBattery bottling⟩
    · exact ⟨far, .craftBattery other⟩
  have changed : first.commit charged ≠ charged := by decide +kernel
  obtain ⟨place, only⟩ := one_battery_is_made_at_most captured
  have maker : 1 = place := by
    by_contra other
    have idle := only [.recharge charge] first [.craftBattery second] rfl other
    simp only [List.foldl_cons, List.foldl_nil, Spell.commit] at idle
    exact changed idle
  have place : 2 ≠ place := by omega
  have idle := only [.recharge charge, .craftBattery first] second [] rfl place
  simp only [List.foldl_cons, List.foldl_nil, Spell.commit] at idle
  exact ⟨captured, changed, idle⟩

end Spellcasting

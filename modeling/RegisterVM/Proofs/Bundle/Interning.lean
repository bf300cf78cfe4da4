import RegisterVM.Symbol

set_option autoImplicit false

namespace RegisterVM.SymbolTable

variable {α : Type} [BEq α] [Hashable α]

def Extends (t t' : SymbolTable α) : Prop := ∀ n id, t.ids.get? n = some id → t'.ids.get? n = some id

theorem Extends.refl (t : SymbolTable α) : t.Extends t := fun _ _ known => known

theorem Extends.trans {t₁ t₂ t₃ : SymbolTable α} (first : t₁.Extends t₂) (second : t₂.Extends t₃) :
    t₁.Extends t₃ := fun n id known => second n id (first n id known)

def Numbers (t : SymbolTable α) (n : α) : Prop := ∃ id, t.ids.get? n = some id

theorem Extends.numbers {t t' : SymbolTable α} (ext : t.Extends t') {n : α} (known : t.Numbers n) :
    t'.Numbers n :=
  let ⟨id, numbered⟩ := known
  ⟨id, ext n id numbered⟩

structure Sound (t : SymbolTable α) : Prop where
  reserved : 0 < t.names.size
  numbered : ∀ n id, t.ids.get? n = some id ↔ 0 < id ∧ t.names[id]? = some n

theorem empty_sound (blank : α) : (empty blank).Sound := by
  refine ⟨by simp [empty], fun n id => ?_⟩
  simp only [empty, Std.HashMap.get?_eq_getElem?, Std.HashMap.getElem?_empty, reduceCtorEq, false_iff]
  rintro ⟨pos, slot⟩
  rw [List.getElem?_toArray, List.getElem?_eq_none (by simp; omega)] at slot
  cases slot

theorem intern_of_known {t : SymbolTable α} {n : α} {id : Nat} (known : t.ids.get? n = some id) :
    t.intern n = (t, ⟨id⟩) := by
  unfold intern
  rw [known]

theorem intern_of_extends {t t' : SymbolTable α} (ext : t.Extends t') {n : α} {id : Nat}
    (known : t.ids.get? n = some id) : t'.intern n = (t', ⟨id⟩) :=
  intern_of_known (ext n id known)

theorem intern_eq_of_extends {t t' : SymbolTable α} (ext : t.Extends t') {n : α} (known : t.Numbers n) :
    (t'.intern n).2 = (t.intern n).2 := by
  obtain ⟨id, numbered⟩ := known
  rw [intern_of_extends ext numbered, intern_of_known numbered]

section Lawful

variable [LawfulBEq α] [LawfulHashable α]

theorem extends_intern (t : SymbolTable α) (n : α) : t.Extends (t.intern n).1 := by
  intro m id known
  unfold intern
  split
  · exact known
  · rename_i absent
    -- the new name is not one the table already numbered
    have other : (n == m) = false := by
      rw [beq_eq_false_iff_ne]
      rintro rfl
      rw [absent] at known
      cases known
    simp only [Std.HashMap.get?_insert, other, known]
    rfl

theorem intern_known (t : SymbolTable α) (n : α) : (t.intern n).1.ids.get? n = some (t.intern n).2.id := by
  unfold intern
  split
  · assumption
  · simp

theorem Sound.intern {t : SymbolTable α} (sound : t.Sound) (n : α) : (t.intern n).1.Sound := by
  unfold SymbolTable.intern
  split
  · exact sound
  · rename_i absent
    refine ⟨by simp, fun m id => ?_⟩
    simp only [Std.HashMap.get?_insert, Array.getElem?_push]
    by_cases same : n = m
    · subst same
      simp only [beq_self_eq_true, if_true, Option.some.injEq]
      constructor
      · rintro rfl
        exact ⟨sound.reserved, by simp⟩
      · rintro ⟨pos, slot⟩
        split at slot
        · omega
        · -- an older slot holding the name would have numbered it already
          have := (sound.numbered n id).mpr ⟨pos, slot⟩
          rw [absent] at this
          cases this
    · have other : (n == m) = false := beq_eq_false_iff_ne.mpr same
      rw [if_neg (by simp [other]), sound.numbered]
      constructor
      · rintro ⟨pos, slot⟩
        refine ⟨pos, ?_⟩
        have inside : id < t.names.size := (Array.getElem?_eq_some_iff.mp slot).1
        rw [if_neg (by omega)]
        exact slot
      · rintro ⟨pos, slot⟩
        split at slot
        · cases slot
          exact absurd rfl same
        · exact ⟨pos, slot⟩

theorem numbers_intern (t : SymbolTable α) (n : α) : (t.intern n).1.Numbers n := ⟨_, intern_known t n⟩

theorem Sound.name_intern {t : SymbolTable α} (sound : t.Sound) (n blank : α) :
    (t.intern n).1.name (t.intern n).2 blank = n := by
  obtain ⟨pos, slot⟩ := ((sound.intern n).numbered n _).mp (intern_known t n)
  unfold name
  rw [if_neg (by simp; omega), Array.getD_eq_getD_getElem?, slot]
  rfl

end Lawful

end RegisterVM.SymbolTable

import CssTypings.Proofs.Collect
import Mathlib.Data.List.Forall2

/-!
# Computations that agree

Two runs agree when both fail or both succeed, and then with related results (`Agree`). A fault says
where a text is wrong, so on two texts it can differ, and it is not compared. What is put together
from runs that agree agrees again: one run behind the other (`Agree.bind`), and a whole list of them
(`agree_collect`). For equality as the relation, agreement means that the results are the same if
there are any (`Agree.toOption_eq`).
-/

namespace CssTypings

variable {ε α β γ δ : Type} {R : α → β → Prop} {S : γ → δ → Prop}

/-- Both runs fail, or both succeed with related results. -/
inductive Agree (R : α → β → Prop) : Except ε α → Except ε β → Prop
  | ok {a : α} {b : β} : R a b → Agree R (.ok a) (.ok b)
  | error (fault fault' : ε) : Agree R (.error fault) (.error fault')

namespace Agree

/-- One run behind the other; what is shown of the second may use what the first gave on both
sides. -/
theorem bind_of_both {x : Except ε α} {y : Except ε β} {f : α → Except ε γ} {g : β → Except ε δ}
    (h : Agree R x y)
    (hfg : ∀ a b, x = .ok a → y = .ok b → R a b → Agree S (f a) (g b)) :
    Agree S (x >>= f) (y >>= g) := by
  cases h with
  | ok hab => exact hfg _ _ rfl rfl hab
  | error fault fault' => exact error fault fault'

theorem bind_of_ok {x : Except ε α} {y : Except ε β} {f : α → Except ε γ} {g : β → Except ε δ}
    (h : Agree R x y) (hfg : ∀ a b, x = .ok a → R a b → Agree S (f a) (g b)) :
    Agree S (x >>= f) (y >>= g) :=
  h.bind_of_both fun a b ha _ ↦ hfg a b ha

theorem bind {x : Except ε α} {y : Except ε β} {f : α → Except ε γ} {g : β → Except ε δ}
    (h : Agree R x y) (hfg : ∀ a b, R a b → Agree S (f a) (g b)) :
    Agree S (x >>= f) (y >>= g) :=
  h.bind_of_ok fun a b _ ↦ hfg a b

theorem map {x : Except ε α} {y : Except ε β} {f : α → γ} {g : β → δ}
    (h : Agree R x y) (hfg : ∀ a b, R a b → S (f a) (g b)) : Agree S (x.map f) (y.map g) := by
  cases h with
  | ok hab => exact ok (hfg _ _ hab)
  | error fault fault' => exact error fault fault'

theorem refl (x : Except ε α) : Agree (· = ·) x x := by
  cases x with
  | ok a => exact ok rfl
  | error fault => exact error fault fault

theorem symm {x y : Except ε α} (h : Agree (· = ·) x y) : Agree (· = ·) y x := by
  cases h with
  | ok hab => exact ok hab.symm
  | error fault fault' => exact error fault' fault

theorem trans {x y z : Except ε α} (h : Agree (· = ·) x y) (h' : Agree (· = ·) y z) :
    Agree (· = ·) x z := by
  cases h with
  | ok hab => rwa [hab]
  | error fault fault' =>
    cases h' with
    | error _ fault'' => exact error fault fault''

theorem toOption_eq {x y : Except ε α} (h : Agree (· = ·) x y) : x.toOption = y.toOption := by
  cases h with
  | ok hab => exact congrArg some hab
  | error fault fault' => rfl

/-- Lists that runs give, one behind the other. -/
theorem append {x y x' y' : Except ε (List α)} (h : Agree (· = ·) x y)
    (h' : Agree (· = ·) x' y') :
    Agree (· = ·) (do let first ← x; let others ← x'; return first ++ others)
      (do let first ← y; let others ← y'; return first ++ others) :=
  h.bind fun _ _ heq ↦ h'.bind fun _ _ heq' ↦ ok (by rw [heq, heq'])

end Agree

/-- **Traversals agree** if they do at each place. -/
theorem agree_collect {f : α → Except ε (List γ)} {g : β → Except ε (List γ)} {l : List α}
    {m : List β} (h : List.Forall₂ (fun a b ↦ Agree (· = ·) (f a) (g b)) l m) :
    Agree (· = ·) (collect f l) (collect g m) := by
  induction h with
  | nil => exact .ok rfl
  | cons hab _ ih => exact hab.append ih

/-- Related lists, where the relation to show may use that the left element is in the list. -/
theorem forall₂_imp_of_mem {T : α → β → Prop} {l : List α} {m : List β} (h : List.Forall₂ R l m)
    (himp : ∀ a ∈ l, ∀ b, R a b → T a b) : List.Forall₂ T l m := by
  induction h with
  | nil => exact .nil
  | cons hab _ ih =>
    obtain ⟨ha, hl⟩ := List.forall_mem_cons.1 himp
    exact .cons (ha _ hab) (ih hl)

theorem forall₂_modifyHead {l m : List α} {R : α → α → Prop} {f g : α → α}
    (h : List.Forall₂ R l m) (hfg : ∀ a b, R a b → R (f a) (g b)) :
    List.Forall₂ R (l.modifyHead f) (m.modifyHead g) := by
  cases h with
  | nil => exact .nil
  | cons hab hl => exact .cons (hfg _ _ hab) hl

/-! ### Results that may be missing -/

theorem optionRel_iff {x : Option α} {y : Option β} :
    Option.Rel R x y ↔ (x = none ∧ y = none) ∨ ∃ a b, x = some a ∧ y = some b ∧ R a b := by
  constructor
  · intro h
    cases h with
    | some hab => exact Or.inr ⟨_, _, rfl, rfl, hab⟩
    | none => exact Or.inl ⟨rfl, rfl⟩
  · rintro (⟨rfl, rfl⟩ | ⟨a, b, rfl, rfl, hab⟩)
    · exact .none
    · exact .some hab

theorem optionRel_map {x : Option α} {y : Option β} {f : α → γ} {g : β → δ} (h : Option.Rel R x y)
    (hfg : ∀ a b, R a b → S (f a) (g b)) : Option.Rel S (x.map f) (y.map g) := by
  cases h with
  | some hab => exact .some (hfg _ _ hab)
  | none => exact .none

theorem optionRel_or {x x' : Option α} {y y' : Option β} (h : Option.Rel R x y)
    (h' : Option.Rel R x' y') : Option.Rel R (x.or x') (y.or y') := by
  cases h with
  | some hab => exact .some hab
  | none => exact h'

end CssTypings

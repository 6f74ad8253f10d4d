import Mathlib.Data.List.Basic

/-!
# Collecting lists until the first fault

The names of a stylesheet are collected from its blocks, those of a block from the selectors in it:
each time a list is gone through in order, each element gives a list or a fault, and the first fault
is the result (`collect_eq_error_iff`). `collect` is this traversal as a recursion;
`collect_eq_mapM` relates it to the library's traversal, and the rest are its equations.

Of what was collected each element is kept once, where it stands first. Leaving elements out before
or after makes no difference to that (`eraseDups_filter`), so what a second list adds to a first one
is what the first one does not have (`eraseDups_append_eq`).
-/

namespace CssTypings

variable {α β ε : Type}

/-- The lists that the elements give, one behind the other, or the first fault. -/
def collect (f : α → Except ε (List β)) : List α → Except ε (List β)
  | [] => .ok []
  | a :: l => do
    let first ← f a
    let others ← collect f l
    return first ++ others

variable (f : α → Except ε (List β))

@[simp] theorem collect_nil : collect f [] = .ok [] := rfl

theorem collect_cons (a : α) (l : List α) :
    collect f (a :: l) = do
      let first ← f a
      let others ← collect f l
      return first ++ others := rfl

theorem collect_singleton (a : α) : collect f [a] = f a := by
  rw [collect_cons]
  cases f a with
  | error fault => rfl
  | ok first => exact congrArg Except.ok (List.append_nil _)

theorem collect_eq_mapM (l : List α) : collect f l = List.flatten <$> l.mapM f := by
  induction l with
  | nil => rfl
  | cons a l ih =>
    rw [collect_cons, ih, List.mapM_cons]
    cases f a with
    | error fault => rfl
    | ok first =>
      cases l.mapM f with
      | error fault => rfl
      | ok others => rfl

theorem collect_append (l m : List α) :
    collect f (l ++ m) = do
      let first ← collect f l
      let others ← collect f m
      return first ++ others := by
  induction l with
  | nil =>
    rw [List.nil_append]
    cases collect f m <;> rfl
  | cons a l ih =>
    rw [List.cons_append, collect_cons, collect_cons, ih]
    cases f a with
    | error fault => rfl
    | ok first =>
      cases collect f l with
      | error fault => rfl
      | ok others =>
        cases collect f m with
        | error fault => rfl
        | ok more => exact congrArg Except.ok (List.append_assoc _ _ _).symm

theorem collect_map {γ : Type} (g : γ → α) (l : List γ) :
    collect f (l.map g) = collect (fun c ↦ f (g c)) l := by
  induction l with
  | nil => rfl
  | cons c l ih => rw [List.map_cons, collect_cons, collect_cons, ih]

variable {f}

theorem collect_of_ok {g : α → List β} {l : List α} (h : ∀ a ∈ l, f a = .ok (g a)) :
    collect f l = .ok (l.flatMap g) := by
  induction l with
  | nil => rfl
  | cons a l ih =>
    obtain ⟨ha, hl⟩ := List.forall_mem_cons.1 h
    rw [collect_cons, ha, ih hl]
    rfl

/-- Elements that give nothing may be left out. -/
theorem collect_filter {p : α → Bool} {l : List α} (h : ∀ a ∈ l, p a = false → f a = .ok []) :
    collect f (l.filter p) = collect f l := by
  induction l with
  | nil => rfl
  | cons a l ih =>
    obtain ⟨ha, hl⟩ := List.forall_mem_cons.1 h
    cases hp : p a with
    | true => rw [List.filter_cons_of_pos hp, collect_cons, collect_cons, ih hl]
    | false =>
      rw [List.filter_cons_of_neg (by simp [hp]), ih hl, collect_cons, ha hp]
      cases collect f l <;> rfl

/-! ### Runs that succeed or fail -/

/-- A run that succeeds is one of two that succeed, one behind the other. -/
theorem bind_eq_ok {γ : Type} {x : Except ε α} {g : α → Except ε γ} {c : γ} :
    x >>= g = .ok c ↔ ∃ a, x = .ok a ∧ g a = .ok c := by
  cases x <;> simp [bind, Except.bind]

theorem exists_of_bind_eq_ok {γ : Type} {x : Except ε α} {g : α → Except ε γ} {c : γ}
    (h : x >>= g = .ok c) : ∃ a, x = .ok a ∧ g a = .ok c :=
  bind_eq_ok.1 h

theorem bind_eq_of_ok {γ : Type} {x : Except ε α} {a : α} {g : α → Except ε γ} {y : Except ε γ}
    (hx : x = .ok a) (hg : g a = y) : x >>= g = y := by
  rw [hx]
  exact hg

theorem exists_of_map_eq_ok {γ : Type} {x : Except ε α} {g : α → γ} {c : γ}
    (h : x.map g = .ok c) : ∃ a, x = .ok a ∧ g a = c := by
  cases x with
  | error fault => cases h
  | ok a =>
    cases h
    exact ⟨a, rfl, rfl⟩

theorem map_eq_error {γ : Type} {x : Except ε α} {g : α → γ} {fault : ε} :
    x.map g = .error fault ↔ x = .error fault := by
  cases x <;> simp [Except.map]

theorem mapError_eq_ok {δ : Type} {x : Except ε α} {f : ε → δ} {a : α} :
    x.mapError f = .ok a ↔ x = .ok a := by
  cases x <;> simp [Except.mapError]

theorem mapError_eq_error {δ : Type} {x : Except ε α} {f : ε → δ} {fault : δ} :
    x.mapError f = .error fault ↔ ∃ fault', x = .error fault' ∧ f fault' = fault := by
  cases x <;> simp [Except.mapError]

theorem bind_eq_error {γ : Type} {x : Except ε α} {g : α → Except ε γ} {fault : ε} :
    x >>= g = .error fault ↔ x = .error fault ∨ ∃ a, x = .ok a ∧ g a = .error fault := by
  cases x <;> simp [bind, Except.bind]

/-- A run that does not succeed has a fault. -/
theorem exists_error_iff {x : Except ε α} : (∃ fault, x = .error fault) ↔ ¬ ∃ a, x = .ok a := by
  cases x <;> simp

theorem toOption_eq_some {x : Except ε α} {a : α} : x.toOption = some a ↔ x = .ok a := by
  cases x <;> simp [Except.toOption]

theorem toOption_mapM (g : α → Except ε β) (l : List α) :
    (l.mapM g).toOption = l.mapM fun a ↦ (g a).toOption := by
  induction l with
  | nil => rfl
  | cons a l ih =>
    rw [List.mapM_cons, List.mapM_cons, ← ih]
    cases g a with
    | error fault => rfl
    | ok b => cases l.mapM g <;> rfl

theorem exists_of_mem_collect {l : List α} {bs : List β} (h : collect f l = .ok bs) {b : β}
    (hb : b ∈ bs) : ∃ a ∈ l, ∃ first, f a = .ok first ∧ b ∈ first := by
  induction l generalizing bs with
  | nil => cases h; simp at hb
  | cons a l ih =>
    obtain ⟨first, hfirst, h⟩ := exists_of_bind_eq_ok h
    obtain ⟨others, hothers, h⟩ := exists_of_bind_eq_ok h
    cases h
    rcases List.mem_append.1 hb with hb | hb
    · exact ⟨a, List.mem_cons_self, first, hfirst, hb⟩
    · obtain ⟨a', ha', hrest⟩ := ih hothers hb
      exact ⟨a', List.mem_cons_of_mem a ha', hrest⟩

/-- A traversal that succeeds has what each element gives. -/
theorem exists_of_collect_eq_ok {l : List α} {bs : List β} (h : collect f l = .ok bs) {a : α}
    (ha : a ∈ l) : ∃ first, f a = .ok first ∧ first ⊆ bs := by
  induction l generalizing bs with
  | nil => exact absurd ha List.not_mem_nil
  | cons a' l ih =>
    obtain ⟨first, hfirst, h⟩ := exists_of_bind_eq_ok h
    obtain ⟨others, hothers, h⟩ := exists_of_bind_eq_ok h
    cases h
    rcases List.mem_cons.1 ha with rfl | ha
    · exact ⟨first, hfirst, List.subset_append_left _ _⟩
    · obtain ⟨first', hfirst', hsub⟩ := ih hothers ha
      exact ⟨first', hfirst', List.subset_append_of_subset_right _ hsub⟩

/-- **The first fault decides**: the elements in front of it succeed, and those behind it do not
matter. -/
theorem collect_eq_error_iff {l : List α} {fault : ε} :
    collect f l = .error fault ↔ ∃ front a behind, l = front ++ a :: behind ∧
      (∀ b ∈ front, ∃ first, f b = .ok first) ∧ f a = .error fault := by
  constructor
  · intro h
    induction l with
    | nil => cases h
    | cons a l ih =>
      rw [collect_cons] at h
      rcases bind_eq_error.1 h with hfirst | ⟨first, hfirst, h⟩
      · exact ⟨[], a, l, rfl, fun b hb ↦ absurd hb List.not_mem_nil, hfirst⟩
      · rcases bind_eq_error.1 h with hothers | ⟨others, -, h⟩
        · obtain ⟨front, a', behind, rfl, hfront, hfault⟩ := ih hothers
          exact ⟨a :: front, a', behind, rfl, List.forall_mem_cons.2 ⟨⟨first, hfirst⟩, hfront⟩,
            hfault⟩
        · cases h
  · rintro ⟨front, a, behind, rfl, hfront, hfault⟩
    induction front with
    | nil =>
      rw [List.nil_append, collect_cons, hfault]
      rfl
    | cons b front ih =>
      obtain ⟨⟨first, hfirst⟩, hfront⟩ := List.forall_mem_cons.1 hfront
      rw [List.cons_append, collect_cons, hfirst, ih hfront]
      rfl

/-- The fault of a traversal is the fault of one element. -/
theorem exists_of_collect_eq_error {l : List α} {fault : ε} (h : collect f l = .error fault) :
    ∃ a ∈ l, f a = .error fault := by
  obtain ⟨front, a, behind, rfl, -, hfault⟩ := collect_eq_error_iff.1 h
  exact ⟨a, List.mem_append_right _ List.mem_cons_self, hfault⟩

/-! ### Each once -/

section

variable [BEq α] [LawfulBEq α]

/-- **Elements may be left out before or after repetitions are.** -/
theorem eraseDups_filter (p : α → Bool) (l : List α) :
    (l.filter p).eraseDups = l.eraseDups.filter p := by
  obtain ⟨n, hn⟩ : ∃ n, l.length = n := ⟨_, rfl⟩
  induction n using Nat.strongRecOn generalizing l with
  | _ n ih =>
    subst hn
    cases l with
    | nil => rfl
    | cons a l =>
      have hshort : (l.filter (!· == a)).length < (a :: l).length :=
        Nat.lt_succ_of_le (List.length_filter_le _ l)
      rw [List.eraseDups_cons]
      cases ha : p a with
      | true =>
        rw [List.filter_cons_of_pos ha, List.filter_cons_of_pos ha, List.eraseDups_cons,
          ← ih _ hshort _ rfl, List.filter_comm]
      | false =>
        rw [List.filter_cons_of_neg (by simp [ha]), List.filter_cons_of_neg (by simp [ha]),
          ← ih _ hshort _ rfl, List.filter_comm]
        congr 1
        refine (List.filter_eq_self.2 fun b hb ↦ ?_).symm
        have hne : b ≠ a := by
          rintro rfl
          exact absurd (List.mem_filter.1 hb).2 (by simp [ha])
        simp [hne]

/-- What a second list adds to a first one. -/
theorem eraseDups_append_eq [DecidableEq α] (l m : List α) :
    (l ++ m).eraseDups =
      l.eraseDups ++ m.eraseDups.filter fun a ↦ decide (a ∉ l.eraseDups) := by
  rw [List.eraseDups_append, ← eraseDups_filter, List.removeAll]
  congr 3
  funext a
  simp [List.mem_eraseDups]

theorem nodup_eraseDups (l : List α) : l.eraseDups.Nodup := by
  obtain ⟨n, hn⟩ : ∃ n, l.length = n := ⟨_, rfl⟩
  induction n using Nat.strongRecOn generalizing l with
  | _ n ih =>
    subst hn
    cases l with
    | nil => exact List.nodup_nil
    | cons a l =>
      rw [List.eraseDups_cons, List.nodup_cons, List.mem_eraseDups]
      exact ⟨by simp, ih _ (Nat.lt_succ_of_le (List.length_filter_le _ l)) _ rfl⟩

end

end CssTypings

import CssTypings.Proofs.Stylesheet.Layout
import CssTypings.Proofs.Stylesheet.Occurrences
import CssTypings.Proofs.Stylesheet.Scanning

/-!
# Where a fault comes from

Extraction has two kinds of faults: a brace without a partner, found by the splitter at braces, and
a bracket without a partner in a selector. The splitter is run on the whole text and on the bodies
of nested blocks; since a body is balanced, only the first run can fail
(`exists_bracket_of_occurrences_eq_error`). So a fault of braces is a property of the masked text as
a whole, and `Block.split_exact` says which one it is, next to what is read off a text that has
none.
-/

namespace CssTypings.Stylesheet

variable {fault : Fault}

/-! ### Faults of selectors -/

theorem Selector.exists_bracket_of_names_eq_error {t : Text} (h : names t = .error fault) :
    ∃ opening inside, fault = .unclosedBracket opening inside := by
  obtain ⟨p, opening, -, -, rfl⟩ := namesFrom_eq_error_iff.1 h
  exact ⟨opening, p.text, rfl⟩

/-! ### Faults of a whole text -/

/-- **A balanced text has no fault of braces**, however deep its blocks are nested. -/
theorem exists_bracket_of_occurrences_eq_error {t : Text} (ht : Balanced '{' '}' t)
    (h : occurrences t = .error fault) :
    ∃ opening inside, fault = .unclosedBracket opening inside := by
  obtain ⟨n, hn⟩ : ∃ n, t.length = n := ⟨_, rfl⟩
  induction n using Nat.strong_induction_on generalizing t with
  | _ n ih =>
    subst hn
    obtain ⟨blocks, hsplit⟩ := Block.exists_split_iff.2 ht
    rw [occurrences_eq, hsplit] at h
    obtain ⟨block, hblock, hfault⟩ := exists_of_collect_eq_error h
    obtain ⟨-, -, -, -, -, -, hbody⟩ := Block.exists_append_of_mem_split hsplit hblock
    rcases block.names_cases with hnames | ⟨rule, -, -, hnames⟩ | hnames | hnames <;>
      rw [hnames] at hfault
    · rw [Selector.listNames_eq] at hfault
      obtain ⟨part, -, hpart⟩ := exists_of_collect_eq_error hfault
      exact Selector.exists_bracket_of_names_eq_error hpart
    · cases hfault
    · exact ih _ (Block.length_body_lt_of_mem_split hsplit hblock) hbody hfault rfl
    · cases hfault

/-- Extraction has a fault of braces exactly if the whole masked text has it. -/
theorem exported_eq_error_iff_split {css : Text}
    (hfault : ∀ opening inside, fault ≠ .unclosedBracket opening inside) :
    exported css = .error fault ↔ Block.split (mask css) = .error fault := by
  rw [exported_eq_error_iff]
  constructor
  · intro h
    have hsplit := h
    rw [occurrences_eq] at hsplit
    rcases bind_eq_error.1 hsplit with hsplit | ⟨blocks, hsplit, -⟩
    · exact hsplit
    · obtain ⟨opening, inside, heq⟩ :=
        exists_bracket_of_occurrences_eq_error (Block.exists_split_iff.1 ⟨blocks, hsplit⟩) h
      exact absurd heq (hfault opening inside)
  · intro h
    rw [occurrences_eq, h]
    rfl

namespace Block

/-- **The splitter parses exactly the balanced texts.** It succeeds if no initial part has more
closing braces than opening ones and the whole text has as many of each. Otherwise the fault is a
closing brace too many if some initial part has one, and else an opening one. A text on which it
succeeds has one layout and no other, and the blocks of that layout are the result; every layout is
split into its blocks. So the body of a block can be split again, and extraction has a fault of
braces only if the whole masked text has it. -/
theorem split_exact (t : Text) :
    ((∃ blocks, split t = .ok blocks) ↔
      (∀ s, s <+: t → s.count '}' ≤ s.count '{') ∧ t.count '}' = t.count '{') ∧
    ((split t).mapError Fault.message = .error "Unexpected '\x7d'." ↔
      ∃ s, s <+: t ∧ s.count '{' < s.count '}') ∧
    ((split t).mapError Fault.message = .error "Unclosed '\x7b'." ↔
      (∀ s, s <+: t → s.count '}' ≤ s.count '{') ∧ t.count '}' ≠ t.count '{') ∧
    (∀ blocks, split t = .ok blocks →
      (∃ layout : Layout, layout.text = t ∧ layout.blocks = blocks ∧
        ∀ other : Layout, other.text = t → other = layout) ∧
      ∀ block ∈ blocks, ∃ inner, split block.body = .ok inner) ∧
    (∀ layout : Layout, split layout.text = .ok layout.blocks) ∧
    ∀ css : Text,
      (exported css = .error .unexpectedClose ↔ split (mask css) = .error .unexpectedClose) ∧
      (exported css = .error .unclosedBlock ↔ split (mask css) = .error .unclosedBlock) := by
  have hparts : ¬ Covered '{' '}' 0 t ↔ ∃ s, s <+: t ∧ s.count '{' < s.count '}' := by
    simp only [covered_zero_iff, not_forall, Nat.not_le, exists_prop]
  refine ⟨?_, ?_, ?_, fun blocks h ↦ ⟨?_, fun block hblock ↦ ?_⟩, split_text, fun css ↦
    ⟨exported_eq_error_iff_split (by simp), exported_eq_error_iff_split (by simp)⟩⟩
  · rw [exists_split_iff, ← covered_zero_iff]
    exact ⟨fun ht ↦ ⟨ht.covered, ht.count_eq⟩, fun ht ↦ ⟨ht.2, ht.1⟩⟩
  · rw [← hparts, ← split_eq_unexpectedClose_iff]
    exact mapError_message_split (Or.inl rfl)
  · rw [← covered_zero_iff, ← split_eq_unclosedBlock_iff]
    exact mapError_message_split (Or.inr rfl)
  · obtain ⟨layout, htext, hblocks⟩ := exists_layout_of_split h
    exact ⟨layout, htext, hblocks, fun other hother ↦
      Layout.text_injective (hother.trans htext.symm)⟩
  · obtain ⟨-, -, -, -, -, -, hbody⟩ := exists_append_of_mem_split h hblock
    exact exists_split_iff.2 hbody

end Block

end CssTypings.Stylesheet

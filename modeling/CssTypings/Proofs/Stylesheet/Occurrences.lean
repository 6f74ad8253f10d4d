import CssTypings.Proofs.Collect
import CssTypings.Stylesheet.Exports

/-!
# The names of a text, block by block

`occurrences` is a recursion on the length of the text, through all blocks at once. Here it is
brought into the form the proofs use: split the text, then collect the names of one block after the
other (`occurrences_eq`). What a sheet exports are the names of its mask, each once
(`exported_eq_ok_iff`).
-/

namespace CssTypings.Stylesheet

/-- The names that the block of an at-rule exports, in order and with repetitions. -/
def AtRule.names (rule : AtRule) (body : Text) : Except Fault (List Text) :=
  match rule.role with
  | .keyframes => .ok (animation? rule.argument).toList
  | .nesting => occurrences body
  | .ignored => .ok []

namespace AtRule

variable {rule : AtRule} {body : Text}

theorem names_of_keyframes (h : rule.role = .keyframes) :
    rule.names body = .ok (animation? rule.argument).toList := by
  rw [names, h]

theorem names_of_nesting (h : rule.role = .nesting) : rule.names body = occurrences body := by
  rw [names, h]

theorem names_of_ignored (h : rule.role = .ignored) : rule.names body = .ok [] := by
  rw [names, h]

end AtRule

namespace Block

/-- The names that one block exports, in order and with repetitions. -/
def names (block : Block) : Except Fault (List Text) :=
  match AtRule.ofPrelude? block.prelude with
  | none => Selector.listNames block.prelude
  | some rule => rule.names block.body

variable {block : Block}

theorem names_of_style (h : AtRule.ofPrelude? block.prelude = none) :
    block.names = Selector.listNames block.prelude := by
  rw [names, h]

theorem names_of_rule {rule : AtRule} (h : AtRule.ofPrelude? block.prelude = some rule) :
    block.names = rule.names block.body := by
  rw [names, h]

/-- **What a block can export**: the names in its selectors, the name of an animation, the names of
its body, or nothing. -/
theorem names_cases (block : Block) :
    block.names = Selector.listNames block.prelude ∨
    (∃ rule, AtRule.ofPrelude? block.prelude = some rule ∧ rule.role = .keyframes ∧
      block.names = .ok (AtRule.animation? rule.argument).toList) ∨
    block.names = occurrences block.body ∨ block.names = .ok [] := by
  cases hrule : AtRule.ofPrelude? block.prelude with
  | none => exact Or.inl (names_of_style hrule)
  | some rule =>
    rw [names_of_rule hrule]
    cases hrole : rule.role with
    | keyframes => exact Or.inr (Or.inl ⟨rule, rfl, hrole, AtRule.names_of_keyframes hrole⟩)
    | nesting => exact Or.inr (Or.inr (Or.inl (AtRule.names_of_nesting hrole)))
    | ignored => exact Or.inr (Or.inr (Or.inr (AtRule.names_of_ignored hrole)))

end Block

/-- **The names of a text are those of its blocks.** -/
theorem occurrences_eq (t : Text) : occurrences t = Block.split t >>= collect Block.names := by
  rw [occurrences]
  split
  · next fault h => rw [h]; rfl
  · next blocks h =>
    rw [h]
    show _ = collect Block.names blocks
    rw [collect_eq_mapM]
    have hattach : blocks.attach.mapM (fun block ↦ block.1.names) = blocks.mapM Block.names := by
      conv_rhs => rw [← List.attach_map_subtype_val blocks, List.mapM_map]
      rfl
    rw [← hattach]
    rfl

/-! ### Exported names -/

variable {css : Text}

theorem exported_eq_ok_iff {names : List Text} :
    exported css = .ok names ↔ ∃ all, occurrences (mask css) = .ok all ∧ all.eraseDups = names := by
  rw [exported, bind_eq_ok]
  refine exists_congr fun all ↦ and_congr_right fun _ ↦ ?_
  exact ⟨Except.ok.inj, congrArg Except.ok⟩

theorem exported_eq_error_iff {fault : Fault} :
    exported css = .error fault ↔ occurrences (mask css) = .error fault := by
  rw [exported, bind_eq_error]
  exact or_iff_left fun ⟨_, _, h⟩ ↦ by cases h

end CssTypings.Stylesheet

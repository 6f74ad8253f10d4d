import CssTypings.Proofs.Stylesheet.AtRules
import CssTypings.Proofs.Stylesheet.Balance
import CssTypings.Proofs.Stylesheet.Masking
import CssTypings.Proofs.Stylesheet.Naming
import CssTypings.Proofs.Stylesheet.Occurrences

/-!
# Extraction from a whole stylesheet

A stylesheet as a tree of items, the text it is written as (`renderAll`), and the names it exports
(`namesAll`), which are read off the tree without looking at any text but that of a rule's selector.
The main statement, `exported_renderAll`, is that extraction from the text gives the names of the
tree, each once and in the order of first occurrence, at any depth of nesting.

The parts of a tree carry the conditions under which they can be written down: a body is balanced
code, what stands in front of a brace or semicolon holds none of its own, and the arguments of an
at-rule do not go on with its keyword. So a tree needs no well-formedness of its own, and the
statement has no hypothesis.

The proof follows the text. The splitter turns the text of a tree into the blocks of its top-level
items (`splitFrom_renderAll`), because the text of the items below is balanced
(`balanced_renderAll`), and then each block gives the names of its item (`Item.collect_blocks`),
where a group of items is once more the text of a tree.
-/

namespace CssTypings.Stylesheet

/-! ### The parts of a stylesheet -/

/-- The body of a block: code with balanced braces. -/
structure Body where
  /-- What stands between the braces. -/
  text : Text
  isCode : IsCode text
  balanced : Balanced '{' '}' text

/-- What stands in front of a block or of a semicolon: code without braces and semicolons. -/
structure Prelude where
  /-- The text up to the brace or semicolon. -/
  text : Text
  isCode : IsCode text
  unbroken : ∀ c ∈ text, Block.isBreak c = false

/-- The head of an at-rule. -/
structure AtHead where
  /-- The keyword, in any letter case. -/
  keyword : Text
  /-- What stands between the keyword and the block. -/
  params : Prelude
  keyword_ne_nil : keyword ≠ []
  isWordOrHyphen_of_mem : ∀ c ∈ keyword, Text.isWordOrHyphen c = true
  /-- The keyword ends where the arguments begin. -/
  isWordOrHyphen_head : ∀ c ∈ params.text.head?, Text.isWordOrHyphen c = false

namespace AtHead

/-- The head as it is written. -/
def text (head : AtHead) : Text := '@' :: (head.keyword ++ head.params.text)

/-- The keyword in lowercase. -/
def lowered (head : AtHead) : Text := head.keyword.map Text.lower

/-- The rule is an animation, by the end of its keyword. -/
def IsKeyframes (head : AtHead) : Prop := "keyframes".toList <:+ head.lowered

/-- The rule holds further rules. -/
def IsNesting (head : AtHead) : Prop := head.lowered ∈ AtRule.nestingKeywords

end AtHead

/-- The argument of an animation. -/
inductive Animation where
  /-- The name alone. -/
  | plain (name : Ident)
  /-- The name in `:local(…)`. -/
  | sheet (name : Ident)
  /-- The name in `:global(…)`. -/
  | global (name : Ident)

namespace Animation

/-- The argument as it is written. -/
def text : Animation → Text
  | plain name => name.text
  | sheet name => ":local(".toList ++ (name.text ++ [')'])
  | global name => ":global(".toList ++ (name.text ++ [')'])

/-- The name that the sheet exports, if it is not a global one. -/
def names : Animation → List Text
  | plain name => [name.text]
  | sheet name => [name.text]
  | global _ => []

end Animation

/-- An item of a stylesheet. -/
inductive Item where
  /-- A style rule: a selector and declarations. -/
  | style (selector : Prelude) (notAt : (Text.trim selector.text).head? ≠ some '@') (body : Body)
  /-- An at-rule that holds further items. -/
  | nesting (head : AtHead) (isNesting : head.IsNesting) (children : List Item)
  /-- An animation. -/
  | keyframes (head : AtHead) (isKeyframes : head.IsKeyframes) (animation : Animation)
    (argument : Text.trim head.params.text = animation.text) (body : Body)
  /-- Any other at-rule with a block. -/
  | other (head : AtHead) (notNesting : ¬ head.IsNesting) (notKeyframes : ¬ head.IsKeyframes)
    (body : Body)
  /-- A statement without a block. -/
  | statement (prelude : Prelude)
  /-- Blanks between items. -/
  | blank (text : Text) (isBlank : ∀ c ∈ text, Text.isBlank c = true)

/-- A block as it is written. -/
def braced (prelude body : Text) : Text := prelude ++ '{' :: (body ++ ['}'])

mutual

/-- An item as it is written. -/
def Item.render : Item → Text
  | .style selector _ body => braced selector.text body.text
  | .nesting head _ children => braced head.text (renderAll children)
  | .keyframes head _ _ _ body => braced head.text body.text
  | .other head _ _ body => braced head.text body.text
  | .statement prelude => prelude.text ++ [';']
  | .blank text _ => text

/-- Items as they are written, one after the other. -/
def renderAll : List Item → Text
  | [] => []
  | item :: items => item.render ++ renderAll items

end

mutual

/-- The names that an item exports, in document order and with repetitions. -/
def Item.names : Item → Except Fault (List Text)
  | .style selector _ _ => Selector.listNames (Text.trim selector.text)
  | .nesting _ _ children => namesAll children
  | .keyframes _ _ animation _ _ => .ok animation.names
  | .other .. => .ok []
  | .statement _ => .ok []
  | .blank .. => .ok []

/-- The names that items export, in document order and with repetitions. -/
def namesAll : List Item → Except Fault (List Text)
  | [] => .ok []
  | item :: items => do
    let first ← item.names
    let others ← namesAll items
    return first ++ others

end

/-! ### The text of a stylesheet is balanced code -/

theorem AtHead.isCode_text (head : AtHead) : IsCode head.text := by
  have hkeyword : IsCode head.keyword :=
    isCode_of_class (by decide) (by decide) head.isWordOrHyphen_of_mem
  refine isCode_cons.2 ⟨by decide, by simp, hkeyword.append head.params.isCode fun hslash ↦ ?_⟩
  exact absurd (head.isWordOrHyphen_of_mem _ (List.mem_of_getLast? hslash)) (by decide)

theorem AtHead.isBreak_of_mem_text (head : AtHead) {c : Char} (hc : c ∈ head.text) :
    Block.isBreak c = false := by
  rcases List.mem_cons.1 hc with rfl | hc
  · decide
  · rcases List.mem_append.1 hc with hc | hc
    · exact Block.isBreak_of_class (by decide) (head.isWordOrHyphen_of_mem c hc)
    · exact head.params.unbroken c hc

theorem isCode_braced {prelude body : Text} (hprelude : IsCode prelude) (hbody : IsCode body) :
    IsCode (braced prelude body) := by
  refine hprelude.append_cons ?_ (by decide) (by decide) (by decide)
  exact hbody.append_cons isCode_nil (by decide) (by decide) (by decide)

theorem balanced_braced {prelude body : Text} (hprelude : ∀ c ∈ prelude, Block.isBreak c = false)
    (hbody : Balanced '{' '}' body) : Balanced '{' '}' (braced prelude body) :=
  (Block.balanced_of_unbroken hprelude).append (hbody.enclose (by decide))

/-- An item does not end in the first half of a comment's opening. -/
theorem Item.getLast?_render_ne_slash (item : Item) : item.render.getLast? ≠ some '/' := by
  cases item with
  | style | nesting | keyframes | other =>
    rw [render, braced, ← List.cons_append, ← List.append_assoc, List.getLast?_concat]
    decide
  | statement => rw [render, List.getLast?_concat]; decide
  | blank text isBlank =>
    intro h
    exact absurd (isBlank _ (List.mem_of_getLast? h)) (by decide)

mutual

theorem Item.isCode_render : ∀ item : Item, IsCode item.render
  | .style selector _ body => isCode_braced selector.isCode body.isCode
  | .nesting head _ children => isCode_braced head.isCode_text (isCode_renderAll children)
  | .keyframes head _ _ _ body => isCode_braced head.isCode_text body.isCode
  | .other head _ _ body => isCode_braced head.isCode_text body.isCode
  | .statement prelude =>
    prelude.isCode.append_cons isCode_nil (by decide) (by decide) (by decide)
  | .blank _ isBlank => isCode_of_class (by decide) (by decide) isBlank

theorem isCode_renderAll : ∀ items : List Item, IsCode (renderAll items)
  | [] => isCode_nil
  | item :: items =>
    item.isCode_render.append (isCode_renderAll items) fun h ↦
      absurd h item.getLast?_render_ne_slash

end

mutual

theorem Item.balanced_render : ∀ item : Item, Balanced '{' '}' item.render
  | .style selector _ body => balanced_braced selector.unbroken body.balanced
  | .nesting head _ children =>
    balanced_braced (fun _ ↦ head.isBreak_of_mem_text) (balanced_renderAll children)
  | .keyframes head _ _ _ body => balanced_braced (fun _ ↦ head.isBreak_of_mem_text) body.balanced
  | .other head _ _ body => balanced_braced (fun _ ↦ head.isBreak_of_mem_text) body.balanced
  | .statement prelude =>
    (Block.balanced_of_unbroken prelude.unbroken).append
      (balanced_of_not_mem (by decide) (by decide))
  | .blank _ isBlank => Block.balanced_of_unbroken fun c hc ↦
    Block.isBreak_of_class (by decide) (isBlank c hc)

theorem balanced_renderAll : ∀ items : List Item, Balanced '{' '}' (renderAll items)
  | [] => balanced_nil
  | item :: items => item.balanced_render.append (balanced_renderAll items)

end

/-! ### Splitting the text of a stylesheet -/

/-- The blocks at the top level of an item's text. -/
def Item.blocks : Item → List Block
  | .style selector _ body => [⟨Text.trim selector.text, body.text⟩]
  | .nesting head _ children => [⟨Text.trim head.text, renderAll children⟩]
  | .keyframes head _ _ _ body => [⟨Text.trim head.text, body.text⟩]
  | .other head _ _ body => [⟨Text.trim head.text, body.text⟩]
  | .statement _ => []
  | .blank .. => []

/-- A block behind blanks is split off, whatever follows it. -/
theorem splitFrom_braced {b prelude body r : Text} (hb : ∀ c ∈ b, Text.isBlank c = true)
    (hprelude : ∀ c ∈ prelude, Block.isBreak c = false) (hbody : Balanced '{' '}' body) :
    Block.splitFrom (.outside b) (braced prelude body ++ r) =
      (Block.splitFrom (.outside []) r).map (⟨Text.trim prelude, body⟩ :: ·) := by
  have htrim : Text.trim (prelude.reverse ++ b).reverse = Text.trim prelude := by
    rw [List.reverse_append, List.reverse_reverse]
    exact Text.trim_append_of_isBlank (fun c hc ↦ hb c (List.mem_reverse.1 hc)) _
  rw [braced, List.append_assoc, List.cons_append, List.append_assoc, List.singleton_append,
    Block.splitFrom_outside_append hprelude, Block.splitFrom_block hbody, htrim]

/-- **The splitter finds the blocks of the items at the top level.** The blanks in front are what is
carried from one item to the next. -/
theorem splitFrom_renderAll (items : List Item) {b : Text} (hb : ∀ c ∈ b, Text.isBlank c = true) :
    Block.splitFrom (.outside b) (renderAll items) = .ok (items.flatMap Item.blocks) := by
  induction items generalizing b with
  | nil => rfl
  | cons item items ih =>
    have hnil : ∀ c ∈ ([] : Text), Text.isBlank c = true := by simp
    rw [renderAll, List.flatMap_cons]
    cases item with
    | style selector _ body =>
      rw [Item.render, splitFrom_braced hb selector.unbroken body.balanced, ih hnil]
      rfl
    | nesting head _ children =>
      rw [Item.render, splitFrom_braced hb (fun _ ↦ head.isBreak_of_mem_text)
        (balanced_renderAll children), ih hnil]
      rfl
    | keyframes head _ _ _ body | other head _ _ body =>
      rw [Item.render, splitFrom_braced hb (fun _ ↦ head.isBreak_of_mem_text) body.balanced,
        ih hnil]
      rfl
    | statement prelude =>
      rw [Item.render, List.append_assoc, Block.splitFrom_outside_append prelude.unbroken,
        List.singleton_append, Block.splitFrom_outside_semicolon, ih hnil]
      rfl
    | blank text isBlank =>
      rw [Item.render, Block.splitFrom_outside_append fun c hc ↦
        Block.isBreak_of_class (by decide) (isBlank c hc), ih]
      · rfl
      · intro c hc
        rcases List.mem_append.1 hc with hc | hc
        · exact isBlank c (List.mem_reverse.1 hc)
        · exact hb c hc

theorem split_renderAll (items : List Item) :
    Block.split (renderAll items) = .ok (items.flatMap Item.blocks) :=
  splitFrom_renderAll items (by simp)

/-! ### The names of one block -/

namespace AtHead

variable (head : AtHead)

/-- The head of an at-rule is read back. -/
theorem ofPrelude?_trim_text :
    AtRule.ofPrelude? (Text.trim head.text) = some ⟨head.lowered, Text.trim head.params.text⟩ := by
  have hkeyword : ∀ c ∈ head.keyword, Text.isBlank c = false := fun c hc ↦
    Text.not_isBlank_of_isWordOrHyphen (head.isWordOrHyphen_of_mem c hc)
  set params := Text.trimRight head.params.text with hparams
  have hstop : params.takeWhile Text.isWordOrHyphen = [] := by
    cases hp : params with
    | nil => rfl
    | cons c r =>
      have hc : c ∈ head.params.text.head? :=
        Text.mem_head?_mono (Text.trimRight_prefix_self _) (by rw [← hparams, hp]; rfl)
      rw [List.takeWhile_cons, head.isWordOrHyphen_head c hc]
      rfl
  have htake : (head.keyword ++ params).takeWhile Text.isWordOrHyphen = head.keyword := by
    rw [List.takeWhile_append_of_pos head.isWordOrHyphen_of_mem, hstop, List.append_nil]
  rw [text, Text.trim_cons_of_not_isBlank (by decide),
    Text.trimRight_append_of_not_isBlank hkeyword, ← hparams, AtRule.ofPrelude?, htake]
  split
  · next h => exact absurd h head.keyword_ne_nil
  · rw [List.drop_left, hparams, Text.trim_trimRight]
    rfl

theorem role_of_isKeyframes (h : head.IsKeyframes) (argument : Text) :
    AtRule.role ⟨head.lowered, argument⟩ = .keyframes := by
  rw [AtRule.role, if_pos (List.isSuffixOf_iff_suffix.2 h)]

/-- No group of rules has a keyword that ends like that of an animation. -/
theorem not_isKeyframes_of_isNesting (h : head.IsNesting) : ¬ head.IsKeyframes := by
  have hall : ∀ k ∈ AtRule.nestingKeywords, ¬ "keyframes".toList <:+ k := by decide
  exact hall _ h

theorem role_of_isNesting (h : head.IsNesting) (argument : Text) :
    AtRule.role ⟨head.lowered, argument⟩ = .nesting := by
  rw [AtRule.role, if_neg]
  · exact if_pos h
  · rw [List.isSuffixOf_iff_suffix]
    exact head.not_isKeyframes_of_isNesting h

theorem role_of_not (hnesting : ¬ head.IsNesting) (hkeyframes : ¬ head.IsKeyframes)
    (argument : Text) : AtRule.role ⟨head.lowered, argument⟩ = .ignored := by
  rw [AtRule.role, if_neg]
  · exact if_neg hnesting
  · rw [List.isSuffixOf_iff_suffix]
    exact hkeyframes

end AtHead

/-- The argument of an animation is read back. -/
theorem Animation.animation?_text (animation : Animation) :
    (AtRule.animation? animation.text).toList = animation.names := by
  cases animation with
  | plain name =>
    have hscan := name.scan?_text_append Identifier.endsName_nil
    rw [List.append_nil] at hscan
    have hhead := name.not_mem_head?_append []
    rw [List.append_nil] at hhead
    show (AtRule.animation? name.text).toList = [name.text]
    rw [AtRule.animation?_eq, AtRule.unwrapped_of_head? hhead, hscan]
    exact congrArg (fun t ↦ [t]) name.unescape_text
  | sheet name =>
    have hends : Identifier.EndsName [')'] := Identifier.endsName_cons.2 (by decide)
    have hscan := name.scan?_text_append hends
    have htrim : Text.trimLeft (name.text ++ [')']) = name.text ++ [')'] := by
      cases htext : name.text with
      | nil => exact absurd htext name.text_ne_nil
      | cons c s =>
        have hc : c ∈ name.text := by rw [htext]; exact List.mem_cons_self
        exact Text.trimLeft_cons_of_not_isBlank
          (Text.not_isBlank_of_isWordOrHyphen (name.isWordOrHyphen_of_mem hc)) _
    show (AtRule.animation? (":local(".toList ++ (name.text ++ [')']))).toList = [name.text]
    rw [AtRule.animation?_eq, AtRule.unwrapped_append, htrim, hscan]
    exact congrArg (fun t ↦ [t]) name.unescape_text
  | global name =>
    have hlocal : ":local(".toList = ':' :: 'l' :: "ocal(".toList := by decide
    have hglobal : ":global(".toList = ':' :: 'g' :: "lobal(".toList := by decide
    show (AtRule.animation? (":global(".toList ++ (name.text ++ [')']))).toList = []
    rw [AtRule.animation?_eq, AtRule.unwrapped, hglobal, hlocal, Text.after?, if_neg (by simp)]
    rfl

/-! ### The names of a stylesheet -/

mutual

/-- **The blocks of an item export the names of the item.** -/
theorem Item.collect_blocks : ∀ item : Item, collect Block.names item.blocks = item.names
  | .style selector notAt body => by
    rw [Item.blocks, collect_singleton, Block.names_of_style (AtRule.ofPrelude?_eq_none notAt),
      Item.names]
  | .nesting head isNesting children => by
    rw [Item.blocks, collect_singleton, Block.names_of_rule head.ofPrelude?_trim_text,
      AtRule.names_of_nesting (head.role_of_isNesting isNesting _)]
    -- the body of the block is once more the text of a tree
    rw [occurrences_eq, split_renderAll, Item.names]
    exact collect_flatMap_blocks children
  | .keyframes head isKeyframes animation argument body => by
    rw [Item.blocks, collect_singleton, Block.names_of_rule head.ofPrelude?_trim_text,
      AtRule.names_of_keyframes (head.role_of_isKeyframes isKeyframes _), argument,
      animation.animation?_text, Item.names]
  | .other head notNesting notKeyframes body => by
    rw [Item.blocks, collect_singleton, Block.names_of_rule head.ofPrelude?_trim_text,
      AtRule.names_of_ignored (head.role_of_not notNesting notKeyframes _), Item.names]
  | .statement _ => by rw [Item.blocks, Item.names, collect_nil]
  | .blank .. => by rw [Item.blocks, Item.names, collect_nil]

theorem collect_flatMap_blocks :
    ∀ items : List Item, collect Block.names (items.flatMap Item.blocks) = namesAll items
  | [] => by rw [List.flatMap_nil, collect_nil, namesAll]
  | item :: items => by
    rw [List.flatMap_cons, collect_append, item.collect_blocks,
      collect_flatMap_blocks items, namesAll]

end

theorem occurrences_renderAll (items : List Item) :
    occurrences (renderAll items) = namesAll items := by
  rw [occurrences_eq, split_renderAll]
  exact collect_flatMap_blocks items

/-- A style rule without declarations exports the names in its selectors, each once. -/
theorem exported_style (selector : Prelude) (notAt : (Text.trim selector.text).head? ≠ some '@') :
    exported (selector.text ++ ['{', '}']) =
      (Selector.listNames (Text.trim selector.text)).map List.eraseDups := by
  have hrender : selector.text ++ ['{', '}'] =
      renderAll [.style selector notAt ⟨[], isCode_nil, balanced_nil⟩] := by
    simp [renderAll, Item.render, braced]
  rw [hrender, exported, mask_of_isCode (isCode_renderAll _), occurrences_renderAll,
    ← collect_flatMap_blocks, List.flatMap_singleton, Item.collect_blocks, Item.names]
  cases Selector.listNames (Text.trim selector.text) <;> rfl

/-- **Extraction from a whole stylesheet.** What is exported are the names of the items, each once
and in the order in which they occur first. If the selector of some rule cannot be read, extraction
reports the first such selector. -/
theorem exported_renderAll (items : List Item) :
    exported (renderAll items) = (namesAll items).map List.eraseDups := by
  rw [exported, mask_of_isCode (isCode_renderAll items), occurrences_renderAll]
  cases namesAll items <;> rfl

end CssTypings.Stylesheet

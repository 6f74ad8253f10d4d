import CssTypings.Proofs.Stylesheet.Balance

/-!
# The layout of a text

A text with balanced braces is a sequence of statements `s;` and blocks `p{b}`, and a rest with no
brace or semicolon in it. Such a sequence is a `Layout`; its parts carry what makes it readable:
there is no brace or semicolon in front of a block or in a statement, and bodies are balanced.

* **A layout is split into its blocks** (`Block.split_text`), and from what follows it the splitter
  goes on as from a new text (`Block.split_segments_append`).
* **A text has one layout at most** (`Layout.text_injective`): the first brace or semicolon decides
  what stands first, and the partner of a brace where its block ends.
* **Every text begins with segments** (`exists_segments_append`), and ends in a rest, in a `}` with
  no block open, or in a block that is not closed. The result of the splitter is read off the end.

So the result is decided by the number of braces in the text and in its initial parts
(`Block.exists_split_iff`, `Block.split_eq_unexpectedClose_iff`,
`Block.split_eq_unclosedBlock_iff`).
-/

namespace CssTypings.Stylesheet

/-- A text without braces and semicolons. -/
@[ext] structure Unbroken where
  /-- The text itself. -/
  text : Text
  isBreak_of_mem : ∀ c ∈ text, Block.isBreak c = false

/-- What a text is made of at the top level. -/
inductive Segment where
  /-- A statement, up to its semicolon. -/
  | statement (text : Unbroken)
  /-- A block, with what stands in front of it and between its braces. -/
  | block (prelude : Unbroken) (body : Text) (balanced : Balanced '{' '}' body)

/-- The layout of a text. -/
@[ext] structure Layout where
  /-- The statements and blocks, in order. -/
  segments : List Segment
  /-- What is left behind the last of them. -/
  rest : Unbroken

/-- A segment as it is written. -/
def Segment.text : Segment → Text
  | statement s => s.text ++ [';']
  | block prelude body _ => prelude.text ++ '{' :: (body ++ ['}'])

/-- The block that a segment is, with its prelude trimmed; statements are dropped. -/
def Segment.block? : Segment → Option Block
  | statement _ => none
  | block prelude body _ => some ⟨Text.trim prelude.text, body⟩

/-- Segments as they are written, one after the other. -/
def segmentsText (segments : List Segment) : Text := segments.flatMap Segment.text

namespace Layout

/-- The text that has the layout. -/
def text (layout : Layout) : Text := segmentsText layout.segments ++ layout.rest.text

/-- The blocks of a layout, in order. -/
def blocks (layout : Layout) : List Block := layout.segments.filterMap Segment.block?

end Layout

@[simp] theorem segmentsText_nil : segmentsText [] = [] := rfl

@[simp] theorem segmentsText_cons (segment : Segment) (segments : List Segment) :
    segmentsText (segment :: segments) = segment.text ++ segmentsText segments := rfl

theorem Segment.balanced_text (segment : Segment) : Balanced '{' '}' segment.text := by
  cases segment with
  | statement s =>
    exact (Block.balanced_of_unbroken s.isBreak_of_mem).append
      (balanced_of_not_mem (by decide) (by decide))
  | block prelude body balanced =>
    exact (Block.balanced_of_unbroken prelude.isBreak_of_mem).append
      (balanced.enclose (by decide))

theorem balanced_segmentsText (segments : List Segment) :
    Balanced '{' '}' (segmentsText segments) := by
  induction segments with
  | nil => exact balanced_nil
  | cons segment segments ih => exact segment.balanced_text.append ih

/-! ### Splitting a layout -/

namespace Block

/-- **A segment is split off**, and what follows it is a text of its own. -/
theorem split_segment_append (segment : Segment) (r : Text) :
    split (segment.text ++ r) = (split r).map (segment.block?.toList ++ ·) := by
  cases segment with
  | statement s =>
    rw [split, Segment.text, List.append_assoc, splitFrom_outside_append s.isBreak_of_mem,
      List.singleton_append, splitFrom_outside_semicolon]
    show split r = (split r).map ([] ++ ·)
    cases split r <;> rfl
  | block prelude body balanced =>
    rw [split, Segment.text, List.append_assoc, List.cons_append, List.append_assoc,
      splitFrom_outside_append prelude.isBreak_of_mem, List.singleton_append,
      splitFrom_block balanced, List.append_nil, List.reverse_reverse]
    rfl

theorem split_segments_append (segments : List Segment) (r : Text) :
    split (segmentsText segments ++ r) =
      (split r).map (segments.filterMap Segment.block? ++ ·) := by
  induction segments with
  | nil =>
    show split r = (split r).map ([] ++ ·)
    cases split r <;> rfl
  | cons segment segments ih =>
    rw [segmentsText_cons, List.append_assoc, split_segment_append, ih, List.filterMap_cons]
    cases split r with
    | error fault => rfl
    | ok blocks => cases h : segment.block? <;> rfl

theorem split_unbroken (p : Unbroken) : split p.text = .ok [] := by
  have h := splitFrom_outside_append (p := []) (r := []) p.isBreak_of_mem
  rw [List.append_nil] at h
  rw [split, h, splitFrom]

/-- **A layout is split into its blocks.** -/
theorem split_text (layout : Layout) : split layout.text = .ok layout.blocks := by
  rw [Layout.text, split_segments_append, split_unbroken]
  exact congrArg Except.ok (List.append_nil _)

/-- A `}` with no block open. -/
theorem split_unbroken_closing (p : Unbroken) (r : Text) :
    split (p.text ++ '}' :: r) = .error .unexpectedClose := by
  rw [split, splitFrom_outside_append p.isBreak_of_mem, splitFrom]
  rfl

/-- A block that no part of the text closes. -/
theorem split_unbroken_opening (p : Unbroken) {r : Text} (hr : Covered '{' '}' 0 r) :
    split (p.text ++ '{' :: r) = .error .unclosedBlock := by
  have h := splitFrom_inside_append (p := p.text.reverse ++ []) (b := []) (r := []) hr
  rw [List.append_nil r] at h
  rw [split, splitFrom_outside_append p.isBreak_of_mem, splitFrom, if_pos rfl, h]
  cases 0 + r.count '{' - r.count '}' <;> rfl

end Block

/-! ### There is no other layout -/

/-- **The first brace or semicolon decides what stands in front of it.** -/
theorem Unbroken.append_cons_inj {p q : Unbroken} {c d : Char} {r s : Text}
    (hc : Block.isBreak c = true) (hd : Block.isBreak d = true)
    (h : p.text ++ c :: r = q.text ++ d :: s) : p = q ∧ c = d ∧ r = s := by
  have htake {p : Unbroken} {c : Char} {r : Text} (hc : Block.isBreak c = true) :
      (p.text ++ c :: r).takeWhile (!Block.isBreak ·) = p.text := by
    rw [List.takeWhile_append_of_pos fun x hx ↦ by simp [p.isBreak_of_mem x hx]]
    simp [hc]
  have hfront : p.text = q.text := by rw [← htake (p := p) (r := r) hc, h, htake hd]
  rw [hfront] at h
  exact ⟨Unbroken.ext hfront, List.cons.inj (List.append_cancel_left h)⟩

/-- **Segments are read one way only**, whatever follows them. -/
theorem Segment.append_inj {s s' : Segment} {r r' : Text} (h : s.text ++ r = s'.text ++ r') :
    s = s' ∧ r = r' := by
  have hbreak : Block.isBreak ';' = true ∧ Block.isBreak '{' = true := by decide
  cases s with
  | statement p =>
    cases s' with
    | statement p' =>
      simp only [text, List.append_assoc, List.singleton_append] at h
      obtain ⟨rfl, -, rfl⟩ := Unbroken.append_cons_inj hbreak.1 hbreak.1 h
      exact ⟨rfl, rfl⟩
    | block p' body' balanced' =>
      simp only [text, List.append_assoc, List.cons_append] at h
      exact absurd (Unbroken.append_cons_inj hbreak.1 hbreak.2 h).2.1 (by decide)
  | block p body balanced =>
    cases s' with
    | statement p' =>
      simp only [text, List.append_assoc, List.cons_append] at h
      exact absurd (Unbroken.append_cons_inj hbreak.2 hbreak.1 h).2.1 (by decide)
    | block p' body' balanced' =>
      simp only [text, List.append_assoc, List.cons_append, List.nil_append] at h
      obtain ⟨rfl, -, hbody⟩ := Unbroken.append_cons_inj hbreak.2 hbreak.2 h
      -- both bodies end at the partner of the same brace
      have hsplit := splitAtClose_of_balanced (r := r) (by decide) balanced
      rw [hbody, splitAtClose_of_balanced (by decide) balanced'] at hsplit
      obtain ⟨rfl, rfl⟩ := Prod.mk.inj (Option.some.inj hsplit)
      exact ⟨rfl, rfl⟩

/-- A segment ends in a brace or semicolon, so it is no part of what has none. -/
theorem Segment.append_ne_unbroken (s : Segment) (r : Text) (p : Unbroken) :
    s.text ++ r ≠ p.text := by
  intro h
  have hall : ∀ c ∈ s.text, Block.isBreak c = false := fun c hc ↦
    p.isBreak_of_mem c (h ▸ List.mem_append_left r hc)
  cases s with
  | statement q => exact absurd (hall ';' (by simp [text])) (by decide)
  | block q body balanced => exact absurd (hall '{' (by simp [text])) (by decide)

/-- **A text has one layout at most.** -/
theorem Layout.text_injective : Function.Injective Layout.text := by
  rintro ⟨segments, rest⟩ ⟨segments', rest'⟩ h
  rw [text, text] at h
  induction segments generalizing segments' with
  | nil =>
    cases segments' with
    | nil => exact congrArg (Layout.mk []) (Unbroken.ext h)
    | cons s segments' =>
      rw [segmentsText_nil, segmentsText_cons, List.append_assoc] at h
      exact absurd h.symm (s.append_ne_unbroken _ rest)
  | cons s segments ih =>
    cases segments' with
    | nil =>
      rw [segmentsText_nil, segmentsText_cons, List.append_assoc] at h
      exact absurd h (s.append_ne_unbroken _ rest')
    | cons s' segments' =>
      rw [segmentsText_cons, segmentsText_cons, List.append_assoc, List.append_assoc] at h
      obtain ⟨rfl, h⟩ := Segment.append_inj h
      obtain ⟨rfl, rfl⟩ := Layout.mk.inj (ih segments' h)
      rfl

/-! ### Every text begins with segments -/

/-- Every text is a stretch without braces and semicolons, up to the first of them. -/
theorem exists_unbroken_append (t : Text) :
    ∃ (p : Unbroken) (r : Text), t = p.text ++ r ∧ ∀ c ∈ r.head?, Block.isBreak c = true := by
  refine ⟨⟨t.takeWhile (!Block.isBreak ·), fun c hc ↦ ?_⟩, t.dropWhile (!Block.isBreak ·),
    List.takeWhile_append_dropWhile.symm, fun c hc ↦ ?_⟩
  · simpa using List.mem_takeWhile_imp hc
  · have := List.head?_dropWhile_not (!Block.isBreak ·) t
    rw [hc] at this
    simpa using this

/-- How a text goes on behind its segments: not at all, with a `}` that closes nothing, or with a
block that is not closed. -/
inductive Ending : Text → Prop
  | nil : Ending []
  | closing (r : Text) : Ending ('}' :: r)
  | opening {r : Text} (covered : Covered '{' '}' 0 r) : Ending ('{' :: r)

/-- **Every text is segments, a stretch without braces and semicolons, and an ending.** -/
theorem exists_segments_append (t : Text) :
    ∃ (segments : List Segment) (p : Unbroken) (r : Text),
      t = segmentsText segments ++ (p.text ++ r) ∧ Ending r := by
  obtain ⟨n, hn⟩ : ∃ n, t.length = n := ⟨_, rfl⟩
  induction n using Nat.strong_induction_on generalizing t with
  | _ n ih =>
    -- what stands behind a first segment is shorter
    have hbehind (s : Segment) (r : Text) (ht : t = s.text ++ r) :
        ∃ (segments : List Segment) (p : Unbroken) (r : Text),
          t = segmentsText segments ++ (p.text ++ r) ∧ Ending r := by
      have hpos : 0 < s.text.length := by
        rw [List.length_pos_iff]
        cases s <;> simp [Segment.text]
      have hlt : r.length < n := by
        rw [← hn, ht, List.length_append]
        omega
      obtain ⟨segments, p, r', rfl, hr'⟩ := ih r.length hlt r rfl
      exact ⟨s :: segments, p, r', by rw [ht, segmentsText_cons, List.append_assoc], hr'⟩
    obtain ⟨p, r, rfl, hr⟩ := exists_unbroken_append t
    cases r with
    | nil => exact ⟨[], p, [], rfl, .nil⟩
    | cons c r =>
      have hc := hr c rfl
      simp only [Block.isBreak, Bool.or_eq_true, beq_iff_eq] at hc
      rcases hc with (rfl | rfl) | rfl
      · cases hsplit : splitAtClose '{' '}' 0 r with
        | none =>
          exact ⟨[], p, '{' :: r, rfl, .opening ((splitAtClose_eq_none_iff (by decide)).1 hsplit)⟩
        | some parts =>
          obtain ⟨hbody, rfl⟩ := (splitAtClose_eq_some_iff (by decide)).1 hsplit
          exact hbehind (.block p parts.1 hbody) parts.2 (by simp [Segment.text])
      · exact ⟨[], p, '}' :: r, rfl, .closing r⟩
      · exact hbehind (.statement p) r (by simp [Segment.text])

namespace Block

variable {t : Text} {blocks : List Block}

/-- **What the splitter gives is decided by the braces.** -/
theorem split_cases (t : Text) :
    (∃ layout : Layout, layout.text = t ∧ split t = .ok layout.blocks ∧ Balanced '{' '}' t) ∨
    (split t = .error .unexpectedClose ∧ ¬ Covered '{' '}' 0 t) ∨
    (split t = .error .unclosedBlock ∧ Covered '{' '}' 0 t ∧ t.count '}' ≠ t.count '{') := by
  have hoc : ('{' : Char) ≠ '}' := by decide
  obtain ⟨segments, p, r, rfl, hr⟩ := exists_segments_append t
  -- in front of the ending the braces are balanced
  have hfront : Balanced '{' '}' (segmentsText segments ++ p.text) :=
    (balanced_segmentsText segments).append (balanced_of_unbroken p.isBreak_of_mem)
  rw [← List.append_assoc]
  cases hr with
  | nil =>
    refine Or.inl ⟨⟨segments, p⟩, (List.append_nil _).symm, ?_, hfront.append_iff.2 balanced_nil⟩
    rw [List.append_nil]
    exact split_text ⟨segments, p⟩
  | closing r =>
    refine Or.inr (Or.inl ⟨?_, fun hcovered ↦ ?_⟩)
    · rw [List.append_assoc, split_segments_append, split_unbroken_closing]
      rfl
    · obtain ⟨d, hd, -⟩ := (covered_cons_closing hoc).1 (hfront.covered_append_iff.1 hcovered)
      exact absurd hd (Nat.succ_ne_zero d).symm
  | @opening r hcovered =>
    refine Or.inr (Or.inr ⟨?_, ?_, ?_⟩)
    · rw [List.append_assoc, split_segments_append, split_unbroken_opening p hcovered]
      rfl
    · exact hfront.covered_append_iff.2
        ((covered_cons_opening hoc).2 (hcovered.mono (Nat.zero_le 1)))
    · have hle := hcovered r.length
      have hcount := hfront.count_eq
      rw [List.take_length] at hle
      simp only [List.count_append, List.count_cons_self, List.count_cons_of_ne hoc] at hcount ⊢
      omega

/-- **The splitter succeeds** exactly on balanced texts. -/
theorem exists_split_iff : (∃ blocks, split t = .ok blocks) ↔ Balanced '{' '}' t := by
  rcases split_cases t with ⟨layout, -, hsplit, ht⟩ | ⟨hsplit, ht⟩ | ⟨hsplit, -, ht⟩
  · exact iff_of_true ⟨_, hsplit⟩ ht
  · exact iff_of_false (by simp [hsplit]) fun h ↦ ht h.covered
  · exact iff_of_false (by simp [hsplit]) fun h ↦ ht h.count_eq

/-- **A closing brace is reported** exactly if it is one too many where it stands. -/
theorem split_eq_unexpectedClose_iff :
    split t = .error .unexpectedClose ↔ ¬ Covered '{' '}' 0 t := by
  rcases split_cases t with ⟨layout, -, hsplit, ht⟩ | ⟨hsplit, ht⟩ | ⟨hsplit, ht, -⟩
  · exact iff_of_false (by simp [hsplit]) fun h ↦ h ht.covered
  · exact iff_of_true hsplit ht
  · exact iff_of_false (by simp [hsplit]) fun h ↦ h ht

/-- **A block that is not closed is reported** exactly if there is nothing worse. -/
theorem split_eq_unclosedBlock_iff :
    split t = .error .unclosedBlock ↔ Covered '{' '}' 0 t ∧ t.count '}' ≠ t.count '{' := by
  rcases split_cases t with ⟨layout, -, hsplit, ht⟩ | ⟨hsplit, ht⟩ | ⟨hsplit, ht⟩
  · exact iff_of_false (by simp [hsplit]) fun h ↦ h.2 ht.count_eq
  · exact iff_of_false (by simp [hsplit]) fun h ↦ ht h.1
  · exact iff_of_true hsplit ht

/-- The splitter has no other faults, and these two are worded differently. -/
theorem mapError_message_split {fault : Fault}
    (hfault : fault = .unexpectedClose ∨ fault = .unclosedBlock) :
    (split t).mapError Fault.message = .error fault.message ↔ split t = .error fault := by
  have hne : Fault.message .unexpectedClose ≠ Fault.message .unclosedBlock := by decide
  rcases split_cases t with ⟨layout, -, hsplit, -⟩ | ⟨hsplit, -⟩ | ⟨hsplit, -, -⟩ <;>
    rcases hfault with rfl | rfl <;> simp [hsplit, Except.mapError, hne, hne.symm]

theorem exists_layout_of_split (h : split t = .ok blocks) :
    ∃ layout : Layout, layout.text = t ∧ layout.blocks = blocks := by
  rcases split_cases t with ⟨layout, htext, hsplit, -⟩ | ⟨hsplit, -⟩ | ⟨hsplit, -, -⟩
  · exact ⟨layout, htext, Except.ok.inj (hsplit.symm.trans h)⟩
  · exact absurd (hsplit.symm.trans h) (by simp)
  · exact absurd (hsplit.symm.trans h) (by simp)

/-! ### Where a block stands -/

/-- What stands in front of a block ends in a brace or semicolon, or is empty. -/
theorem isBreak_of_getLast?_segmentsText (segments : List Segment) :
    ∀ c ∈ (segmentsText segments).getLast?, isBreak c = true := by
  induction segments using List.reverseRecOn with
  | nil => simp
  | append_singleton segments s _ =>
    have htext : segmentsText (segments ++ [s]) = segmentsText segments ++ s.text := by
      simp [segmentsText]
    rw [htext]
    cases s with
    | statement q =>
      rw [Segment.text, ← List.append_assoc, List.getLast?_concat]
      simp
      decide
    | block q body balanced =>
      rw [Segment.text, ← List.cons_append, ← List.append_assoc, ← List.append_assoc,
        List.getLast?_concat]
      simp
      decide

/-- **Where a block stands**: behind a brace, a semicolon or nothing, its prelude, and between
braces its body, which is balanced. -/
theorem exists_append_of_mem_split (h : split t = .ok blocks) {block : Block}
    (hmem : block ∈ blocks) :
    ∃ (front : Text) (prelude : Unbroken) (behind : Text),
      t = front ++ (prelude.text ++ '{' :: (block.body ++ '}' :: behind)) ∧
      (∀ c ∈ front.getLast?, isBreak c = true) ∧
      block.prelude = Text.trim prelude.text ∧ Balanced '{' '}' block.body := by
  obtain ⟨layout, rfl, rfl⟩ := exists_layout_of_split h
  obtain ⟨s, hs, hblock⟩ := List.mem_filterMap.1 hmem
  obtain ⟨before, after, hsegments⟩ := List.append_of_mem hs
  cases s with
  | statement q => cases hblock
  | block prelude body balanced =>
    cases hblock
    refine ⟨segmentsText before, prelude, segmentsText after ++ layout.rest.text, ?_,
      isBreak_of_getLast?_segmentsText before, rfl, balanced⟩
    rw [Layout.text, hsegments]
    simp [segmentsText, Segment.text]

end Block

end CssTypings.Stylesheet

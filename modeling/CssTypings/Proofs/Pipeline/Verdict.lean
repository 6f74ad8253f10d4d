import CssTypings.Pipeline
import CssTypings.Proofs.Collect
import CssTypings.Proofs.Text.Encoding
import CssTypings.Proofs.Tree.Changes

/-!
# What a conversion comes to

A conversion compiles its source, takes the CSS through a scratch file and writes the declaration.
What comes of it is decided by the tree that it starts from: `verdict` says it without any change to
a tree, either as the first failure or as the place and the text of the declaration.

The conversion itself agrees with this as long as nothing is at its scratch path. If it fails, only
the time and the count of scratch names move on (`convert_of_error`); if it succeeds, the
declaration is written besides (`convert_of_ok`). That the scratch file gives the CSS back is
`declaration_ofFile`, and that it leaves no trace is `declare_eq`.
-/

namespace CssTypings

variable {tree : Tree} {location : Location} {p scratch source : Path} {css : Text}

/-! ### Scratch files -/

/-- The path of the scratch file with a number. -/
def Store.scratchPath (store : Store) (number : Nat) : Path :=
  store.directory.join (.ofText (store.label ++ Text.hex 32 number ++ ".css".toList))

/-- The failure of an extraction from a file. -/
def unbalancedIn (p : Path) (fault : Stylesheet.Fault) : Failure :=
  .rejected ("Unbalanced braces in " ++ p.toString ++ ": " ++ fault.message)

/-- The declaration for CSS that is read from a file. -/
def Declaration.ofCss (p : Path) (css : Text) : Except Failure Text :=
  match Stylesheet.exported (Text.unifyNewlines css) with
  | .ok names => .ok (document names)
  | .error fault => .error (unbalancedIn p fault)

theorem Declaration.ofCss_eq_ok {declaration : Text} :
    Declaration.ofCss p css = .ok declaration ↔
      ∃ names, Stylesheet.exported (Text.unifyNewlines css) = .ok names ∧
        Declaration.document names = declaration := by
  rw [Declaration.ofCss]
  cases Stylesheet.exported (Text.unifyNewlines css) <;> simp

/-- A file that was written gives its text back. -/
theorem declaration_ofFile (h : tree.target p = .ok location) (css : Text) :
    Declaration.ofFile (Tree.changeFile.stamped tree location (Utf8.encode css)) p =
      Declaration.ofCss p css := by
  rw [Declaration.ofFile, Tree.read_stamped h]
  simp only [Utf8.decode_encode]
  rfl

/-! ### Rendering -/

theorem Compiler.render_eq_ok {compiler : Compiler} :
    compiler.render tree source = .ok css ↔
      ∃ bytes modified, tree.look source = .ok (some (.file bytes modified)) ∧
        compiler.compile source bytes = .ok css := by
  rw [render]
  constructor
  · intro h
    split at h
    · next bytes modified hlook => exact ⟨bytes, modified, hlook, h⟩
    · cases h
    · cases h
  · rintro ⟨bytes, modified, hlook, hcompile⟩
    rw [hlook]
    exact hcompile

/-- What is rendered is a file. -/
theorem Compiler.find?_of_render {compiler : Compiler} (hplain : source.IsPlain)
    (h : compiler.render tree source = .ok css) :
    ∃ bytes modified, tree.find? source.parts = some (.file bytes modified) ∧
      compiler.compile source bytes = .ok css := by
  obtain ⟨bytes, modified, hlook, hcompile⟩ := render_eq_ok.1 h
  obtain ⟨location, hwalk⟩ := Tree.exists_walk_of_look hlook
  have hfind := Tree.find?_of_walk hwalk
  rw [Tree.eq_parts_of_walk hplain hwalk] at hfind
  exact ⟨bytes, modified, hfind.symm, hcompile⟩

theorem Compiler.parts_ne_nil_of_render {compiler : Compiler} (hplain : source.IsPlain)
    (h : compiler.render tree source = .ok css) : source.parts ≠ [] := by
  intro hnil
  obtain ⟨bytes, modified, hfind, -⟩ := find?_of_render hplain h
  rw [hnil] at hfind
  cases hfind

namespace Pipeline

variable (pipeline : Pipeline) {space : Workspace} {failure : Failure} {declaration : Text}

/-- The declaration for CSS that goes through a scratch file, if the file can be made. -/
def drafted (tree : Tree) (scratch : Path) (css : Text) : Except Failure Text := do
  let _ ← (tree.target scratch).mapError .access
  Declaration.ofCss scratch css

/-- **What a conversion comes to**: the first failure, or where the declaration is written and what
it says. -/
def verdict (tree : Tree) (scratch source : Path) : Except Failure (Location × Text) := do
  let css ← pipeline.compiler.render tree source
  let declaration ← drafted tree scratch css
  let location ← (tree.target (source.artifact pipeline.suffix)).mapError .access
  return (location, declaration)

variable {pipeline}

theorem drafted_eq_ok :
    drafted tree scratch css = .ok declaration ↔
      (∃ l, tree.target scratch = .ok l) ∧ Declaration.ofCss scratch css = .ok declaration := by
  rw [drafted]
  cases tree.target scratch with
  | error fault => simp [Except.mapError, bind, Except.bind]
  | ok l => simp [Except.mapError, bind, Except.bind]

theorem verdict_eq (tree : Tree) (scratch source : Path) :
    pipeline.verdict tree scratch source =
      match pipeline.compiler.render tree source with
      | .error failure => .error failure
      | .ok css =>
        match drafted tree scratch css with
        | .error failure => .error failure
        | .ok declaration =>
          match tree.target (source.artifact pipeline.suffix) with
          | .error fault => .error (.access fault)
          | .ok location => .ok (location, declaration) := by
  rw [verdict]
  cases pipeline.compiler.render tree source with
  | error failure => rfl
  | ok css =>
    simp only [bind, Except.bind]
    cases drafted tree scratch css with
    | error failure => rfl
    | ok declaration => cases tree.target (source.artifact pipeline.suffix) <;> rfl

theorem verdict_eq_ok :
    pipeline.verdict tree scratch source = .ok (location, declaration) ↔
      ∃ css, pipeline.compiler.render tree source = .ok css ∧
        drafted tree scratch css = .ok declaration ∧
        tree.target (source.artifact pipeline.suffix) = .ok location := by
  constructor
  · intro h
    obtain ⟨css, hrender, h⟩ := exists_of_bind_eq_ok h
    obtain ⟨d, hdrafted, h⟩ := exists_of_bind_eq_ok h
    obtain ⟨l, htarget, h⟩ := exists_of_bind_eq_ok h
    obtain ⟨rfl, rfl⟩ := Prod.mk.inj (Except.ok.inj h)
    exact ⟨css, hrender, hdrafted, mapError_eq_ok.1 htarget⟩
  · rintro ⟨css, hrender, hdrafted, htarget⟩
    rw [verdict, hrender, htarget]
    exact congrArg (fun x : Except Failure Text ↦ x.bind fun d ↦ .ok (location, d)) hdrafted

/-! ### The conversion itself -/

theorem write_eq (path : Path) (t : Text) (space : Workspace) :
    write path t space =
      match space.tree.target path with
      | .ok location => (.ok (), { space with
          tree := Tree.changeFile.stamped space.tree location (Utf8.encode t) })
      | .error fault => (.error (.access fault), space) := by
  rw [write, Tree.write_eq_target]
  cases space.tree.target path <;> rfl

/-- **A scratch file leaves no trace** but the time and the count of scratch names. -/
theorem declare_eq (hsound : space.tree.Sound)
    (hfree : space.tree.IsFree (pipeline.store.scratchPath space.scratch)) (css : Text) :
    ∃ clock, pipeline.declare css space =
      (drafted space.tree (pipeline.store.scratchPath space.scratch) css,
        { space with tree := { space.tree with clock }, scratch := space.scratch + 1 }) := by
  have hallocate : pipeline.store.allocate ".css".toList space =
      (pipeline.store.scratchPath space.scratch, { space with scratch := space.scratch + 1 }) :=
    rfl
  rw [declare, Store.withScratch, hallocate]
  generalize pipeline.store.scratchPath space.scratch = scratch at hfree ⊢
  simp only [write_eq, drafted]
  cases htarget : space.tree.target scratch with
  | error fault =>
    refine ⟨space.tree.clock, ?_⟩
    simp only [Tree.release_of_target_error htarget]
    rfl
  | ok location =>
    refine ⟨space.tree.clock + 1, ?_⟩
    simp only [declaration_ofFile htarget, Tree.release_stamped hsound htarget hfree]
    rfl

section Convert

variable (hsound : space.tree.Sound)
  (hfree : space.tree.IsFree (pipeline.store.scratchPath space.scratch))
include hsound hfree

/-- A conversion that fails leaves everything but the time and the count of scratch names. -/
theorem convert_of_error
    (h : pipeline.verdict space.tree (pipeline.store.scratchPath space.scratch) source =
      .error failure) :
    ∃ clock scratch, space.scratch ≤ scratch ∧ pipeline.convert source space =
      (.error failure, { space with tree := { space.tree with clock }, scratch }) := by
  rw [verdict] at h
  rw [convert]
  cases hrender : pipeline.compiler.render space.tree source with
  | error failure' =>
    rw [hrender] at h
    cases h
    exact ⟨space.tree.clock, space.scratch, Nat.le_refl _, rfl⟩
  | ok css =>
    obtain ⟨clock, hdeclare⟩ := declare_eq hsound hfree css
    refine ⟨clock, space.scratch + 1, Nat.le_succ _, ?_⟩
    rw [hrender] at h
    simp only [hdeclare]
    cases hdrafted : drafted space.tree (pipeline.store.scratchPath space.scratch) css with
    | error failure' =>
      have heq : failure' = failure := by simpa [hdrafted, bind, Except.bind] using h
      rw [heq]
    | ok declaration =>
      have htree := Tree.target_congr (Tree.find?_clock space.tree clock)
        (source.artifact pipeline.suffix)
      simp only [write_eq, htree]
      cases htarget : space.tree.target (source.artifact pipeline.suffix) with
      | error fault =>
        have heq : Failure.access fault = failure := by
          simpa [hdrafted, htarget, Except.mapError, bind, Except.bind] using h
        rw [← heq]
      | ok location =>
        simp [hdrafted, htarget, Except.mapError, bind, Except.bind, pure, Except.pure] at h

/-- A conversion that succeeds writes the declaration, and leaves the rest as one that fails
does. -/
theorem convert_of_ok
    (h : pipeline.verdict space.tree (pipeline.store.scratchPath space.scratch) source =
      .ok (location, declaration)) :
    ∃ clock, pipeline.convert source space =
      (.ok (source.artifact pipeline.suffix),
        { space with
          tree := Tree.changeFile.stamped { space.tree with clock } location
            (Utf8.encode declaration)
          scratch := space.scratch + 1 }) := by
  obtain ⟨css, hrender, hdrafted, htarget⟩ := verdict_eq_ok.1 h
  obtain ⟨clock, hdeclare⟩ := declare_eq hsound hfree css
  have htree := Tree.target_congr (Tree.find?_clock space.tree clock)
    (source.artifact pipeline.suffix)
  refine ⟨clock, ?_⟩
  rw [convert, hrender]
  simp only [hdeclare, hdrafted, write_eq, htree, htarget]

end Convert

end Pipeline

end CssTypings
